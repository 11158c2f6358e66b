import SpirvLegality.Proofs.Soundness

/-!
# Refused requirements leave no trace

`Collector.request` changes a collector step by step, and an error may end it behind some of them.
`run_request` compares it with `Collector.add`: the steps that are taken before an error change
nothing. So a collector that goes on behind errors (`offerEach`) is at each point the one that has
seen the granted requirements only (`addAll_granted`), and a refused requirement can be left out
without any later answer being another one (`offerEach_refused`).
-/

namespace SpirvLegality.Collector

variable {env : Environment} {c : Collector}

/-! ## The steps of a call -/

/-- The end of a call that changes the collector to what an addition gives, and does not change it
where the addition fails. -/
def atOnce (c : Collector) :
    Except RequirementError Collector → EStateM.Result RequirementError Collector Unit
  | .ok next => .ok () next
  | .error e => .error e c

/-- A capability is declared together with its extension once its gate is passed. -/
theorem run_requestCapability (cap : Capability) :
    (requestCapability env cap).run c = c.atOnce (c.addCapability env cap) := by
  rw [requestCapability, EStateM.run_bind, EStateM.run_get, addCapability]
  by_cases h : c.declares cap = true
  · simp only [h, if_true]
    rfl
  · simp only [h]
    -- The gate is asked before anything is declared.
    cases env.gate cap.row with
    | error e => rfl
    | ok ext => cases ext <;> rfl

/-- A choice is recorded once it is known that the target can make it. -/
theorem run_requestChoice (candidates : List Capability) :
    (requestChoice env candidates).run c = c.atOnce (c.addChoice env candidates) := by
  rw [requestChoice, EStateM.run_bind, EStateM.run_get, addChoice]
  by_cases h : candidates.any c.declares = true
  · simp only [h, if_true]
    rfl
  · simp only [h]
    by_cases hoffers : (candidates.any fun cap => (env.usable? cap).isSome) = true
    · simp only [hoffers, if_true]
      rfl
    · simp only [hoffers]
      rfl

/-- The steps of a call change the collector as `add` does, and not at all if they end in an
error. -/
theorem run_request (req : Requirement) : (request env req).run c = c.atOnce (c.add env req) := by
  cases req with
  | capability cap => exact run_requestCapability cap
  | anyOf candidates => exact run_requestChoice candidates
  | extension | nothing => rfl

/-! ## One call -/

theorem offer_of_add_eq_ok {next : Collector} {req : Requirement} (h : c.add env req = .ok next) :
    c.offer env req = (next, .ok ()) := by
  rw [offer, run_request, h]
  rfl

theorem offer_of_add_eq_error {e : RequirementError} {req : Requirement}
    (h : c.add env req = .error e) : c.offer env req = (c, .error e) := by
  rw [offer, run_request, h]
  rfl

/-- A call that ends in an error leaves the collector as it was. -/
theorem offer_of_refused {e : RequirementError} {req : Requirement}
    (h : (c.offer env req).2 = .error e) : c.offer env req = (c, .error e) := by
  cases hadd : c.add env req with
  | ok next =>
      rw [offer_of_add_eq_ok hadd] at h
      cases h
  | error e' =>
      have hoffer := offer_of_add_eq_error hadd
      rw [hoffer] at h ⊢
      exact congrArg (Prod.mk c) h

/-! ## Calls that go on behind errors -/

/-- Offers some requirements in turn, going on behind those that are refused. The answers are
those of the calls, in order. -/
def offerEach (env : Environment) (c : Collector) :
    List Requirement → Collector × List (Except RequirementError Unit)
  | [] => (c, [])
  | req :: rest =>
    let (next, answer) := c.offer env req
    let (last, answers) := offerEach env next rest
    (last, answer :: answers)

theorem offerEach_cons (req : Requirement) (rest : List Requirement) :
    c.offerEach env (req :: rest) =
      (((c.offer env req).1.offerEach env rest).1,
        (c.offer env req).2 :: ((c.offer env req).1.offerEach env rest).2) := rfl

/-- The calls of a second list find the collector that those of a first one have left behind. -/
theorem offerEach_append (first second : List Requirement) :
    c.offerEach env (first ++ second) =
      (((c.offerEach env first).1.offerEach env second).1,
        (c.offerEach env first).2 ++ ((c.offerEach env first).1.offerEach env second).2) := by
  induction first generalizing c with
  | nil => rfl
  | cons req rest ih => rw [List.cons_append, offerEach_cons, ih, offerEach_cons, List.cons_append]

/-- Each call has an answer. -/
theorem length_answers (calls : List Requirement) :
    (c.offerEach env calls).2.length = calls.length := by
  induction calls generalizing c with
  | nil => rfl
  | cons req rest ih => rw [offerEach_cons, List.length_cons, List.length_cons, ih]

/-- Without a call that is refused, the other calls have the same answers and leave behind the same
collector. -/
theorem offerEach_refused {before after : List Requirement} {req : Requirement}
    {e : RequirementError} (h : ((c.offerEach env before).1.offer env req).2 = .error e) :
    c.offerEach env (before ++ after) =
      ((c.offerEach env (before ++ req :: after)).1,
        (c.offerEach env (before ++ req :: after)).2.eraseIdx before.length) := by
  have hlength : (c.offerEach env before).2.length = before.length := length_answers before
  rw [offerEach_append, offerEach_append, offerEach_cons, offer_of_refused h, ← hlength,
    List.eraseIdx_append_of_length_le (Nat.le_refl _), Nat.sub_self, List.eraseIdx_cons_zero]

/-! ## The calls that are granted -/

/-- Those of some requirements that are granted when all of them are offered in turn. -/
def granted (env : Environment) (c : Collector) (calls : List Requirement) : List Requirement :=
  ((calls.zip (c.offerEach env calls).2).filter fun call => call.2.isOk).map Prod.fst

theorem granted_cons_of_ok {next : Collector} {req : Requirement} {rest : List Requirement}
    (h : c.offer env req = (next, .ok ())) :
    c.granted env (req :: rest) = req :: next.granted env rest := by
  simp [granted, offerEach_cons, h, Except.isOk, Except.toBool]

theorem granted_cons_of_error {e : RequirementError} {req : Requirement} {rest : List Requirement}
    (h : c.offer env req = (c, .error e)) :
    c.granted env (req :: rest) = c.granted env rest := by
  simp [granted, offerEach_cons, h, Except.isOk, Except.toBool]

/-- The calls that are granted, made alone, succeed and lead to the same collector. -/
theorem addAll_granted (calls : List Requirement) :
    c.addAll env (c.granted env calls) = .ok (c.offerEach env calls).1 := by
  induction calls generalizing c with
  | nil => rfl
  | cons req rest ih =>
      cases hadd : c.add env req with
      | ok next =>
          have hoffer := offer_of_add_eq_ok hadd
          rw [granted_cons_of_ok hoffer, addAll, hadd, offerEach_cons, hoffer]
          exact ih
      | error e =>
          have hoffer := offer_of_add_eq_error hadd
          rw [granted_cons_of_error hoffer, offerEach_cons, hoffer]
          exact ih

/-- In a sequence of calls that goes on behind errors, a call that ends in an error leaves what is
declared as it was, every later call has the answer that it has without the failed one, and the
declarations at the end are those of the calls that succeeded. -/
theorem refusal_leaves_no_trace (env : Environment) :
    (∀ before req after e, ((empty.offerEach env before).1.offer env req).2 = .error e →
        (∀ cap, ((empty.offerEach env before).1.offer env req).1.declares cap =
          (empty.offerEach env before).1.declares cap) ∧
          (empty.offerEach env (before ++ req :: after)).2.eraseIdx before.length =
            (empty.offerEach env (before ++ after)).2) ∧
      ∀ calls, (empty.addAll env (empty.granted env calls)).map (finish env) =
        .ok ((empty.offerEach env calls).1.finish env) := by
  constructor
  · intro before req after e h
    constructor
    · intro cap
      rw [offer_of_refused h]
    · exact (congrArg Prod.snd (offerEach_refused h)).symm
  · intro calls
    rw [addAll_granted]
    rfl

/-- Behind an open choice, a capability that comes too late for the target is refused; the choice
stays open, and a capability that settles it is granted. -/
theorem refusal_leaves_no_trace_groupNonUniform :
    ((empty.offerEach .multiview [.anyOf [.shader, .kernel]]).1.offer .multiview
        (.capability .groupNonUniform)).2 =
          .error (.versionTooLow "GroupNonUniform" (.of 1 3) (.of 1 0)) ∧
      (∀ cap, ((empty.offerEach .multiview [.anyOf [.shader, .kernel]]).1.offer .multiview
          (.capability .groupNonUniform)).1.declares cap =
            (empty.offerEach .multiview [.anyOf [.shader, .kernel]]).1.declares cap) ∧
      (empty.offerEach .multiview [.anyOf [.shader, .kernel], .capability .groupNonUniform,
          .capability .kernel]).2.eraseIdx 1 =
        (empty.offerEach .multiview [.anyOf [.shader, .kernel], .capability .kernel]).2 := by
  have hopen : (empty.offerEach .multiview [.anyOf [.shader, .kernel]]).1 =
      ⟨{}, [[.shader, .kernel]]⟩ := by
    rw [offerEach_cons, offer_of_add_eq_ok
      (add_eq_ok_iff.2 (.postpone _ (by decide) Environment.offers_shader_multiview))]
    rfl
  have hrefused : ((empty.offerEach .multiview [.anyOf [.shader, .kernel]]).1.offer .multiview
      (.capability .groupNonUniform)).2 =
        .error (.versionTooLow "GroupNonUniform" (.of 1 3) (.of 1 0)) := by
    rw [hopen]
    rfl
  obtain ⟨hdeclared, hanswers⟩ := (refusal_leaves_no_trace .multiview).1 _ _ [.capability .kernel]
    _ hrefused
  exact ⟨hrefused, hdeclared, hanswers⟩

end SpirvLegality.Collector
