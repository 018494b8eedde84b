import Mathlib.Tactic
import PrReviewer.Hosted.ReviewRecords
import PrReviewer.Lib.DecimalText

/-!
# The price of a model call

models/provider.py (`cost_usd_for`): the price of the tokens of a call as a text, which
`validate_model_call_input` of events/record_model_call.py checks against a pattern of its own.

The arithmetic of `Decimal` is taken to be precise enough for the amounts, and token counts are
not negative.
-/

namespace PrReviewer
namespace Models

open Lib
open Hosted (ModelCallInput isCostUsd validateModelCallInput)

inductive ProviderError where
  | modelProviderFailure (message : String)
deriving DecidableEq, Repr

/-- Dollars per million tokens, of the input and of the output. -/
structure TokenPrices where
  input : DecimalNumber
  output : DecimalNumber
deriving DecidableEq, Repr

/-- `_PRICE_PER_MILLION`. -/
def pricePerMillion : String × String → Option TokenPrices
  | ("openai", "gpt-4o-mini") => some ⟨⟨15, 2⟩, ⟨60, 2⟩⟩
  | ("anthropic", "claude-3-5-haiku-latest") => some ⟨⟨80, 2⟩, ⟨400, 2⟩⟩
  | _ => none

/-- `Decimal(input_tokens) / million * input_price + Decimal(output_tokens) / million *
output_price`. -/
def totalCost (prices : TokenPrices) (inputTokens outputTokens : Nat) : DecimalNumber :=
  (((DecimalNumber.ofNat inputTokens).overPow10 6).mul prices.input).add
    (((DecimalNumber.ofNat outputTokens).overPow10 6).mul prices.output)

/-- The text of a total. -/
def costText (total : DecimalNumber) : List Char :=
  let text := total.fixedPoint
  let text := if '.' ∈ text then trimmed text else text
  if text = [] then ['0'] else text

/-- `cost_usd_for`. -/
def costUsdFor (provider model : String) (inputTokens outputTokens : Nat) :
    Except ProviderError String :=
  match pricePerMillion (provider, model) with
  | none => .error (.modelProviderFailure ("unknown model " ++ provider ++ "/" ++ model))
  | some prices => .ok (.ofList (costText (totalCost prices inputTokens outputTokens)))

theorem costUsdFor_eq
    {provider model : String} {prices : TokenPrices}
    (hprices : pricePerMillion (provider, model) = some prices) (inputTokens outputTokens : Nat) :
    costUsdFor provider model inputTokens outputTokens =
      .ok (.ofList (costText (totalCost prices inputTokens outputTokens))) := by
  rw [costUsdFor, hprices]

/-- What the tokens of a call cost. -/
def priceUsd (prices : TokenPrices) (inputTokens outputTokens : Nat) : ℚ :=
  inputTokens * prices.input.value / 10 ^ 6 + outputTokens * prices.output.value / 10 ^ 6

theorem value_totalCost
    (prices : TokenPrices) (inputTokens outputTokens : Nat) :
    (totalCost prices inputTokens outputTokens).value =
      priceUsd prices inputTokens outputTokens := by
  rw [totalCost, priceUsd]
  simp only [DecimalNumber.value_add, DecimalNumber.value_mul, DecimalNumber.value_overPow10,
    DecimalNumber.value_ofNat]
  ring

/-- The prices have no more than two places, so the totals have no more than eight. -/
theorem places_totalCost
    {key : String × String} {prices : TokenPrices}
    (hprices : pricePerMillion key = some prices) (inputTokens outputTokens : Nat) :
    (totalCost prices inputTokens outputTokens).places ≤ 8 := by
  have htwo : prices.input.places = 2 ∧ prices.output.places = 2 := by
    unfold pricePerMillion at hprices
    split at hprices
    · cases hprices
      exact ⟨rfl, rfl⟩
    · cases hprices
      exact ⟨rfl, rfl⟩
    · cases hprices
  have hinput := DecimalNumber.overPow10_places_le (.ofNat inputTokens) 6
  have houtput := DecimalNumber.overPow10_places_le (.ofNat outputTokens) 6
  have hzero : ∀ n, (DecimalNumber.ofNat n).places = 0 := fun _ => rfl
  rw [hzero] at hinput houtput
  simp only [totalCost, DecimalNumber.add, DecimalNumber.mul, htwo]
  omega

/-- The text of a total is the canonical one, with no more places than the total has. -/
theorem canonical_costText
    (total : DecimalNumber) :
    ∃ whole places fraction,
      IsCanonical (costText total) total.value whole places fraction ∧ places ≤ total.places := by
  have hdigits : ∀ n, Nat.toDigits 10 n ≠ [] := fun n => Nat.toDigits_ne_nil
  by_cases hplaces : total.places = 0
  · have hpoint : '.' ∉ total.fixedPoint := by
      rw [DecimalNumber.fixedPoint, if_pos hplaces]
      exact point_not_mem (fun _ => isDigit_toDigits)
    have hne : total.fixedPoint ≠ [] := by
      rw [DecimalNumber.fixedPoint, if_pos hplaces]
      exact hdigits _
    have htext : costText total = total.fixedPoint := by
      simp only [costText, if_neg hpoint, if_neg hne]
    rw [htext]
    exact ⟨_, _, _, canonical_fixedPoint total hplaces, Nat.zero_le _⟩
  · have hpoint : '.' ∈ total.fixedPoint := by
      rw [DecimalNumber.fixedPoint, if_neg hplaces]
      exact List.mem_append_right _ (List.mem_cons_self ..)
    have hcanonical := canonical_trimmed total hplaces
    have hne : trimmed total.fixedPoint ≠ [] := by
      rw [hcanonical.is_text]
      exact List.append_ne_nil_of_left_ne_nil (hdigits _) _
    have htext : costText total = trimmed total.fixedPoint := by
      simp only [costText, if_pos hpoint, if_neg hne]
    rw [htext]
    exact ⟨_, _, _, hcanonical, dropZeros_le _ _⟩

/-- The first digit of a number that is not zero. -/
theorem head_toDigits
    {n : Nat} (hn : 0 < n) :
    (Nat.toDigits 10 n).head? ≠ some '0' := by
  by_cases hsmall : n < 10
  · rw [Nat.toDigits_of_lt_base hsmall]
    simpa using hn.ne'
  · obtain ⟨c, cs, hdigits, hc⟩ := toDigits_head n (not_lt.mp hsmall)
    rw [hdigits]
    simpa using hc

/-- The pattern accepts a canonical text of six digits before the point and twelve after it. -/
theorem isCostUsd_of_canonical
    {text : List Char} {value : ℚ} {whole places fraction : Nat}
    (h : IsCanonical text value whole places fraction)
    (hvalue : value < 10 ^ 6) (hplaces : places ≤ 12) :
    isCostUsd (.ofList text) = true := by
  have hwhole : whole < 10 ^ 6 := by
    have hle : (whole : ℚ) ≤ value := by
      rw [h.is_value]
      exact le_add_of_nonneg_right (by positivity)
    exact_mod_cast hle.trans_lt hvalue
  have hpoint : ∀ c ∈ Nat.toDigits 10 whole, decide (c ≠ '.') = true := by
    intro c hc
    refine decide_eq_true (fun heq => ?_)
    exact point_not_mem (fun _ => isDigit_toDigits) (heq ▸ hc)
  have hall : (Nat.toDigits 10 whole).all Char.isDigit = true :=
    List.all_eq_true.mpr (fun c hc => isDigit_toDigits hc)
  have hlength : (Nat.toDigits 10 whole).length ≤ 6 :=
    (Nat.length_toDigits_le_iff (by omega) (by omega)).mpr hwhole
  have hnonempty : 1 ≤ (Nat.toDigits 10 whole).length :=
    List.length_pos_of_ne_nil Nat.toDigits_ne_nil
  have hfront : (Nat.toDigits 10 whole = ['0'] ||
      ((Nat.toDigits 10 whole).all Char.isDigit && decide (1 ≤ (Nat.toDigits 10 whole).length) &&
        decide ((Nat.toDigits 10 whole).length ≤ 6) &&
        decide ((Nat.toDigits 10 whole).head? ≠ some '0'))) = true := by
    rcases Nat.eq_zero_or_pos whole with rfl | hpos
    · rfl
    · simp [hall, hlength, hnonempty, head_toDigits hpos]
  rw [isCostUsd, String.toList_ofList, h.is_text]
  by_cases hnone : places = 0
  · rw [if_pos hnone, List.append_nil, List.takeWhile_eq_self_iff.mpr hpoint,
      List.dropWhile_eq_nil_iff.mpr hpoint]
    simpa using hfront
  · have htake : ('.' :: padded places fraction).takeWhile (fun c => decide (c ≠ '.')) = [] :=
      List.takeWhile_cons_of_neg (by decide)
    have hdrop : ('.' :: padded places fraction).dropWhile (fun c => decide (c ≠ '.')) =
        '.' :: padded places fraction :=
      List.dropWhile_cons_of_neg (by decide)
    rw [if_neg hnone, List.takeWhile_append_of_pos hpoint, List.dropWhile_append_of_pos hpoint,
      htake, hdrop, List.append_nil]
    have hback : ((padded places fraction).all Char.isDigit &&
        decide (1 ≤ (padded places fraction).length) &&
        decide ((padded places fraction).length ≤ 12)) = true := by
      have hdigits : (padded places fraction).all Char.isDigit = true :=
        List.all_eq_true.mpr (fun c hc => isDigit_padded hc)
      have hpos : 1 ≤ places := Nat.pos_of_ne_zero hnone
      simp [hdigits, hplaces, hpos]
    simp only [hfront, hback, Bool.and_self]

/-- The price of a call is exact, monotone and told by its text, and its text is recorded. -/
theorem cost_usd_exact
    {provider model : String} {prices : TokenPrices}
    (hprices : pricePerMillion (provider, model) = some prices) :
    (∀ inputTokens outputTokens : Nat, priceUsd prices inputTokens outputTokens < 10 ^ 6 →
      ∃ text : String, costUsdFor provider model inputTokens outputTokens = .ok text ∧
        Canonical text.toList (priceUsd prices inputTokens outputTokens) ∧
        ∀ call : ModelCallInput, call.costUsd = ⟨text⟩ → 0 ≤ call.inputTokens →
          0 ≤ call.outputTokens → 0 ≤ call.latencyMs → validateModelCallInput call = .ok ()) ∧
    (∀ inputTokens inputTokens' outputTokens outputTokens' : Nat,
      inputTokens ≤ inputTokens' → outputTokens ≤ outputTokens' →
        priceUsd prices inputTokens outputTokens ≤ priceUsd prices inputTokens' outputTokens') ∧
    (∀ (provider' model' : String) (prices' : TokenPrices),
      pricePerMillion (provider', model') = some prices' →
        ∀ inputTokens outputTokens inputTokens' outputTokens' : Nat,
          priceUsd prices inputTokens outputTokens =
              priceUsd prices' inputTokens' outputTokens' →
            costUsdFor provider model inputTokens outputTokens =
              costUsdFor provider' model' inputTokens' outputTokens') := by
  refine ⟨fun i o hbelow => ?_, fun i i' o o' hi ho => ?_, fun provider' model' prices' hprices'
    i o i' o' hsame => ?_⟩
  · obtain ⟨whole, places, fraction, hcanonical, hplaces⟩ :=
      canonical_costText (totalCost prices i o)
    rw [value_totalCost] at hcanonical
    refine ⟨.ofList (costText (totalCost prices i o)), costUsdFor_eq hprices i o, ?_, ?_⟩
    · rw [String.toList_ofList]
      exact ⟨whole, places, fraction, hcanonical⟩
    · intro call hcost hinput houtput hlatency
      have hpattern : isCostUsd call.costUsd.text = true := by
        rw [hcost]
        exact isCostUsd_of_canonical hcanonical hbelow
          ((hplaces.trans (places_totalCost hprices i o)).trans (by omega))
      simp only [validateModelCallInput, if_neg (not_lt.mpr hinput), if_neg (not_lt.mpr houtput),
        if_neg (not_lt.mpr hlatency), hpattern, not_true_eq_false, if_false]
  · have hvalue : ∀ d : DecimalNumber, 0 ≤ d.value := fun d => by
      rw [DecimalNumber.value]
      positivity
    have hinput : (i : ℚ) ≤ i' := by exact_mod_cast hi
    have houtput : (o : ℚ) ≤ o' := by exact_mod_cast ho
    rw [priceUsd, priceUsd]
    have hin := mul_le_mul_of_nonneg_right hinput (hvalue prices.input)
    have hout := mul_le_mul_of_nonneg_right houtput (hvalue prices.output)
    gcongr
  · obtain ⟨_, _, _, hcanonical, _⟩ := canonical_costText (totalCost prices i o)
    obtain ⟨_, _, _, hcanonical', _⟩ := canonical_costText (totalCost prices' i' o')
    rw [value_totalCost] at hcanonical hcanonical'
    rw [← hsame] at hcanonical'
    have htext : costText (totalCost prices i o) = costText (totalCost prices' i' o') :=
      Canonical.unique ⟨_, _, _, hcanonical⟩ ⟨_, _, _, hcanonical'⟩
    rw [costUsdFor_eq hprices, costUsdFor_eq hprices', htext]

theorem mini_prices :
    pricePerMillion ("openai", "gpt-4o-mini") = some ⟨⟨15, 2⟩, ⟨60, 2⟩⟩ := by
  rfl

/-- A hundred million tokens cost fifteen dollars. -/
theorem cost_usd_exact_mini :
    costUsdFor "openai" "gpt-4o-mini" 100000000 0 = .ok "15" ∧
      Canonical "15".toList (priceUsd ⟨⟨15, 2⟩, ⟨60, 2⟩⟩ 100000000 0) := by
  have hfifteen : costUsdFor "openai" "gpt-4o-mini" 100000000 0 = .ok "15" := by
    decide +kernel
  have hbelow : priceUsd ⟨⟨15, 2⟩, ⟨60, 2⟩⟩ 100000000 0 < 10 ^ 6 := by
    norm_num [priceUsd, DecimalNumber.value]
  obtain ⟨text, htext, hcanonical, _⟩ := (cost_usd_exact mini_prices).1 100000000 0 hbelow
  rw [hfifteen] at htext
  cases htext
  exact ⟨rfl, hcanonical⟩

end Models
end PrReviewer
