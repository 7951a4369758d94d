import AegisPlatform.Domain.Model

/-!
# The model catalog, and what a call may cost

* `ModelCatalogEntry` — a catalog entry, with the checks of its constructors.
* `Arithmetic` — the operations a cost is computed with: `decimal` rounds every
  result to 28 digits, `exact` does not.
* `estimateCost`, `reservationCost` — what `complete` sets aside for a call.
* `reservation_covers` — in exact arithmetic no candidate can cost more.
-/

namespace AegisPlatform

open Fallible

/-- A deployment environment. -/
inductive Environment where
  | development
  | test
  | production
  deriving DecidableEq, Repr

/-- The stored name of an environment. -/
def Environment.value : Environment → String
  | development => "development"
  | test => "test"
  | production => "production"

/-- What a model can do. -/
structure ModelCapabilities where
  maxContextTokens : ℤ
  maxOutputTokens : ℤ
  supportsTools : Bool
  supportsVision : Bool
  supportsStructuredOutput : Bool
  supportsReasoningTokens : Bool := false
  supportsCacheTokens : Bool := false
  valid : 1 ≤ maxContextTokens ∧ 1 ≤ maxOutputTokens ∧ maxOutputTokens ≤ maxContextTokens

/-- Catalog metadata of one provider model.  Sets are lists. -/
structure ModelCatalogEntry where
  identity : ModelIdentity
  capabilities : ModelCapabilities
  pricing : PricingVersion
  environments : List Environment
  dataResidencies : List String
  providerRetainsData : Bool
  costRank : ℤ
  latencyRank : ℤ
  valid : environments ≠ [] ∧ dataResidencies ≠ [] ∧ 0 ≤ costRank ∧ 0 ≤ latencyRank

/-! ## Costs -/

/-- The operations a cost is computed with. -/
structure Arithmetic where
  add : ℚ → ℚ → ℚ
  mul : ℚ → ℚ → ℚ
  div : ℚ → ℚ → ℚ

/-- The default decimal context: 28 significant digits. -/
def Arithmetic.decimal : Arithmetic := ⟨Decimal.add, Decimal.mul, Decimal.div⟩

/-- No rounding. -/
def Arithmetic.exact : Arithmetic := ⟨(· + ·), (· * ·), (· / ·)⟩

namespace Arithmetic

variable (ops : Arithmetic)

/-- `PricingVersion.cost`. -/
def cost (p : PricingVersion) (u : TokenUsage) : ℚ :=
  ops.div
    (ops.add (ops.add (ops.add (ops.add
      (ops.mul u.inputTokens p.inputPerMillionUsd)
      (ops.mul u.outputTokens p.outputPerMillionUsd))
      (ops.mul u.cacheReadTokens p.cacheReadPerMillionUsd))
      (ops.mul u.cacheWriteTokens p.cacheWritePerMillionUsd))
      (ops.mul u.reasoningTokens p.reasoningPerMillionUsd))
    1000000

/-- `estimate_cost`: every token at the highest of the five rates. -/
def estimateCost (pricing : PricingVersion) (promptTokens maxOutputTokens : ℤ) : ℚ :=
  let highestRate :=
    max (max (max (max pricing.inputPerMillionUsd pricing.outputPerMillionUsd)
      pricing.cacheReadPerMillionUsd) pricing.cacheWritePerMillionUsd)
      pricing.reasoningPerMillionUsd
  ops.div (ops.mul ((promptTokens + maxOutputTokens : ℤ) : ℚ) highestRate) 1000000

/-- `max` of a generator. -/
def maximum : List ℚ → Except Raised ℚ
  | [] => .error (.valueError "max() iterable argument is empty")
  | x :: rest => .ok (rest.foldl max x)

/-- The `reservation_cost` of `complete`. -/
def reservationCost (candidates : List ModelCatalogEntry)
    (promptTokenEstimate maxOutputTokens : ℤ) : Except Raised ℚ :=
  maximum (candidates.map fun candidate =>
    ops.estimateCost candidate.pricing promptTokenEstimate maxOutputTokens)

/-- `_actual_usage`. -/
def actualUsage (pricing : PricingVersion) (response : ModelResponse)
    (reservation : BudgetReservation) : Except Raised (ℤ × ℚ) := do
  let tokens := response.usage.billableTokens
  let cost := ops.cost pricing response.usage
  raiseIf (reservation.tokenLimit < tokens) (.modelGatewayError "usage_exceeded_token_reservation")
  raiseIf (reservation.costLimitUsd < cost) (.modelGatewayError "usage_exceeded_cost_reservation")
  return (tokens, cost)

/-- With the decimal operations these are the gateway's own. -/
theorem cost_decimal : decimal.cost = PricingVersion.cost := rfl

theorem actualUsage_decimal : decimal.actualUsage = AegisPlatform.actualUsage := rfl

/-! ## The worst case -/

theorem le_foldl_max (xs : List ℚ) (x : ℚ) :
    x ≤ xs.foldl max x ∧ ∀ y ∈ xs, y ≤ xs.foldl max x := by
  induction xs generalizing x with
  | nil => exact ⟨le_rfl, fun y hy => absurd hy List.not_mem_nil⟩
  | cons a rest ih =>
    obtain ⟨hfirst, hrest⟩ := ih (max x a)
    refine ⟨(le_max_left x a).trans hfirst, fun y hy => ?_⟩
    rcases List.mem_cons.mp hy with rfl | hy
    · exact (le_max_right x y).trans hfirst
    · exact hrest y hy

theorem le_maximum {xs : List ℚ} {limit x : ℚ} (h : maximum xs = .ok limit) (hx : x ∈ xs) :
    x ≤ limit := by
  cases xs with
  | nil => exact absurd hx List.not_mem_nil
  | cons first rest =>
    cases h
    obtain ⟨hfirst, hrest⟩ := le_foldl_max rest first
    rcases List.mem_cons.mp hx with rfl | hx
    · exact hfirst
    · exact hrest x hx

/-- A weighted sum is at most the sum of the weights at the highest price. -/
theorem weighted_le {rate : ℚ} {pairs : List (ℤ × ℚ)}
    (h : ∀ pair ∈ pairs, 0 ≤ pair.1 ∧ pair.2 ≤ rate) :
    (pairs.map fun pair => (pair.1 : ℚ) * pair.2).sum ≤ ((pairs.map (·.1)).sum : ℤ) * rate := by
  induction pairs with
  | nil => simp
  | cons pair rest ih =>
    obtain ⟨hweight, hprice⟩ := h pair List.mem_cons_self
    have hweight' : (0 : ℚ) ≤ pair.1 := by exact_mod_cast hweight
    have hfirst : (pair.1 : ℚ) * pair.2 ≤ pair.1 * rate := mul_le_mul_of_nonneg_left hprice hweight'
    have hrest := ih fun p hp => h p (List.mem_cons_of_mem _ hp)
    simp only [List.map_cons, List.sum_cons]
    push_cast at hrest ⊢
    linarith

/-- **A usage within the token limit costs at most the estimate**, however it splits over
the five counters. -/
theorem cost_le_estimateCost (pricing : PricingVersion) (usage : TokenUsage)
    {promptTokens maxOutputTokens : ℤ}
    (h : usage.billableTokens ≤ promptTokens + maxOutputTokens) :
    exact.cost pricing usage ≤ exact.estimateCost pricing promptTokens maxOutputTokens := by
  obtain ⟨hinput, houtput, hread, hwrite, hreasoning⟩ := usage.valid
  obtain ⟨-, hprice, -⟩ := pricing.valid
  let rate := max (max (max (max pricing.inputPerMillionUsd pricing.outputPerMillionUsd)
    pricing.cacheReadPerMillionUsd) pricing.cacheWritePerMillionUsd) pricing.reasoningPerMillionUsd
  let pairs : List (ℤ × ℚ) := [(usage.inputTokens, pricing.inputPerMillionUsd),
    (usage.outputTokens, pricing.outputPerMillionUsd),
    (usage.cacheReadTokens, pricing.cacheReadPerMillionUsd),
    (usage.cacheWriteTokens, pricing.cacheWritePerMillionUsd),
    (usage.reasoningTokens, pricing.reasoningPerMillionUsd)]
  have hpairs : ∀ pair ∈ pairs, 0 ≤ pair.1 ∧ pair.2 ≤ rate := by
    simp [pairs, rate, hinput, houtput, hread, hwrite, hreasoning]
  have hrate : 0 ≤ rate := hprice.trans (hpairs _ List.mem_cons_self).2
  have hsum : (pairs.map fun pair => (pair.1 : ℚ) * pair.2).sum / 1000000 =
      exact.cost pricing usage := by
    simp [pairs, exact, cost, add_assoc]
  have hbillable : (pairs.map (·.1)).sum = usage.billableTokens := by
    simp [pairs, TokenUsage.billableTokens, add_assoc]
  have htokens : (usage.billableTokens : ℚ) ≤ ((promptTokens + maxOutputTokens : ℤ) : ℚ) := by
    exact_mod_cast h
  calc exact.cost pricing usage
      = (pairs.map fun pair => (pair.1 : ℚ) * pair.2).sum / 1000000 := hsum.symm
    _ ≤ (usage.billableTokens * rate) / 1000000 := by
        have := weighted_le hpairs
        rw [hbillable] at this
        gcongr
    _ ≤ (((promptTokens + maxOutputTokens : ℤ) : ℚ) * rate) / 1000000 := by gcongr

/-- **The reservation covers the worst case.**  For every nonempty list of candidates the
reservation's cost is defined, no usage of a candidate within the token limit costs more,
and so a response of a candidate is never refused for its cost alone. -/
theorem reservation_covers {candidates : List ModelCatalogEntry} (hne : candidates ≠ [])
    (promptTokenEstimate maxOutputTokens : ℤ) :
    ∃ limit, exact.reservationCost candidates promptTokenEstimate maxOutputTokens = .ok limit ∧
      ∀ candidate ∈ candidates,
        (∀ usage : TokenUsage, usage.billableTokens ≤ promptTokenEstimate + maxOutputTokens →
          exact.cost candidate.pricing usage ≤ limit) ∧
        ∀ (response : ModelResponse) (reservation : BudgetReservation) (e : Raised),
          reservation.tokenLimit = promptTokenEstimate + maxOutputTokens →
          reservation.costLimitUsd = limit →
          exact.actualUsage candidate.pricing response reservation = .error e →
            e = .modelGatewayError "usage_exceeded_token_reservation" := by
  obtain ⟨limit, hlimit⟩ : ∃ limit,
      exact.reservationCost candidates promptTokenEstimate maxOutputTokens = .ok limit := by
    cases candidates with
    | nil => exact absurd rfl hne
    | cons first rest => exact ⟨_, rfl⟩
  have hcovers : ∀ candidate ∈ candidates, ∀ usage : TokenUsage,
      usage.billableTokens ≤ promptTokenEstimate + maxOutputTokens →
      exact.cost candidate.pricing usage ≤ limit := by
    intro candidate hcandidate usage husage
    have hestimate := cost_le_estimateCost candidate.pricing usage husage
    have hmax := le_maximum hlimit (List.mem_map_of_mem hcandidate)
    exact hestimate.trans hmax
  refine ⟨limit, hlimit, fun candidate hcandidate => ⟨hcovers candidate hcandidate, ?_⟩⟩
  intro response reservation e htokens hcost hraise
  unfold actualUsage at hraise
  by_cases hover : reservation.tokenLimit < response.usage.billableTokens
  · simp only [raiseIf, if_pos hover] at hraise
    cases hraise
    rfl
  · -- within the token limit the cost check passes
    have hwithin : ¬ reservation.costLimitUsd < exact.cost candidate.pricing response.usage := by
      rw [hcost]
      exact not_lt.mpr (hcovers candidate hcandidate _ (by omega))
    simp only [raiseIf, if_neg hover, if_neg hwithin] at hraise
    cases hraise

/-- A model whose output is five times as dear as its input. -/
def sampleEntry : ModelCatalogEntry where
  identity := ⟨"acme", "large", by decide⟩
  capabilities := ⟨200000, 8000, true, true, true, false, false, by decide⟩
  pricing := ⟨"v1", 3, 15, 0, 0, 0, by decide +kernel⟩
  environments := [.production]
  dataResidencies := ["eu"]
  providerRetainsData := false
  costRank := 1
  latencyRank := 1
  valid := by decide

theorem reservation_covers_sample : ∃ limit,
    exact.reservationCost [sampleEntry] 1000 200 = .ok limit ∧
      ∀ usage : TokenUsage, usage.billableTokens ≤ 1200 →
        exact.cost sampleEntry.pricing usage ≤ limit := by
  obtain ⟨limit, hlimit, hcovers⟩ := reservation_covers (List.cons_ne_nil sampleEntry []) 1000 200
  exact ⟨limit, hlimit, (hcovers sampleEntry List.mem_cons_self).1⟩

end Arithmetic

end AegisPlatform
