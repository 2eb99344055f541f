/-
# StorageFlow.Proofs.Action.Effects — what a computation comes to, and what it leaves behind.

`Decides` relates a computation to the list of everything that is wrong with its input: the computation fails
with the first entry, and succeeds if there is none.  What is wrong with the input of two computations in a
row is what is wrong for the first, then what is wrong for the second.  `EndAlike` compares two computations with
each other: they fail alike, or have related results.

Actions work on the trail of a run besides.  `Action.Checks` says that an action decides such a list whatever
happened before it, and records no diagnostics; `Action.Records` says that an action never fails and records
certain diagnostics.  `Action.Ends` says precisely how an action ends, which may depend on the sink, and
`Action.Answers` does so for actions that never fail.  None of them says anything about messages.  Every action
of a run is put together from a few kinds of steps, so one lemma for each of them and one for `bind` are enough.
-/
import StorageFlow.Action

namespace StorageFlow

universe u

variable {α β : Type u} {P : α → Prop} {Q : β → Prop} {faults more : List Failure}

/-! ## Failing with the first fault -/

section Decides

variable {x : Except Failure α} {f : α → Except Failure β}

/-- A computation fails with the first of some faults.  If there are none, its result satisfies `P`. -/
inductive Decides (P : α → Prop) : Except Failure α → List Failure → Prop
  | ok {a : α} : P a → Decides P (.ok a) []
  | error {failure : Failure} {others : List Failure} : Decides P (.error failure) (failure :: others)

theorem decides_ite {c : Prop} [Decidable c] {a : α} {failure : Failure} (h : c → P a) :
    Decides P (if c then .ok a else .error failure) (if c then [] else [failure]) := by
  split
  · next hc => exact .ok (h hc)
  · exact .error

theorem Decides.imp {R : α → Prop} (h : Decides P x faults) (himp : ∀ a, P a → R a) :
    Decides R x faults := by
  cases h with
  | ok ha => exact .ok (himp _ ha)
  | error => exact .error

theorem Decides.bind (h : Decides P x faults) (hf : ∀ a, P a → Decides Q (f a) more) :
    Decides Q (x >>= f) (faults ++ more) := by
  cases h with
  | ok ha => exact hf _ ha
  | error => exact .error

theorem Decides.map {g : α → β} (h : Decides P x faults) (hg : ∀ a, P a → Q (g a)) :
    Decides Q (x.map g) faults := by
  cases h with
  | ok ha => exact .ok (hg _ ha)
  | error => exact .error

/-- What never fails adds no faults. -/
theorem Decides.bind_of_exists (h : Decides P x faults)
    (hf : ∀ a, P a → ∃ b, f a = .ok b ∧ Q b) : Decides Q (x >>= f) faults := by
  rw [← List.append_nil faults]
  refine h.bind fun a ha => ?_
  obtain ⟨b, hb, hq⟩ := hf a ha
  rw [hb]
  exact .ok hq

/-- A result can be remembered along with what it satisfies. -/
theorem Decides.and_eq (h : Decides P x faults) : Decides (fun a => P a ∧ x = .ok a) x faults := by
  cases h with
  | ok ha => exact .ok ⟨ha, rfl⟩
  | error => exact .error

theorem Decides.of_ok {a : α} (h : Decides P (.ok a) faults) : P a := by
  cases h with
  | ok ha => exact ha

theorem Decides.isOk_iff (h : Decides P x faults) : (∃ a, x = .ok a) ↔ faults = [] := by
  cases h with
  | ok ha => exact iff_of_true ⟨_, rfl⟩ rfl
  | error => exact iff_of_false (by simp) (by simp)

theorem Decides.error_iff (h : Decides P x faults) {failure : Failure} :
    x = .error failure ↔ faults.head? = some failure := by
  cases h with
  | ok ha => simp
  | error => simp

theorem eq_ok_of_toOption {a : α} (h : x.toOption = some a) : x = .ok a := by
  cases x with
  | error failure => cases h
  | ok b => exact congrArg Except.ok (Option.some.inj h)

theorem map_eq_ok_iff {f : α → β} {b : β} : x.map f = .ok b ↔ ∃ a, x = .ok a ∧ f a = b := by
  cases x with
  | ok a => simp [Except.map]
  | error failure => simp [Except.map]

theorem map_eq_error_iff {f : α → β} {failure : Failure} : x.map f = .error failure ↔ x = .error failure := by
  cases x with
  | ok a => simp [Except.map]
  | error failure => simp [Except.map]

/-- What was computed already is handed on. -/
theorem ok_bind (a : α) (f : α → Except Failure β) : (Except.ok a >>= f) = f a := rfl

end Decides

/-! ## Computations that end alike -/

/-- Two computations end in the same failure, or in results that are related. -/
inductive EndAlike {ε α β : Type} (R : α → β → Prop) : Except ε α → Except ε β → Prop
  | ok {a : α} {b : β} : R a b → EndAlike R (.ok a) (.ok b)
  | error (failure : ε) : EndAlike R (.error failure) (.error failure)

section EndAlike

variable {ε δ α β γ ζ : Type} {R : α → β → Prop} {S : γ → ζ → Prop} {x : Except ε α} {y : Except ε β}

theorem EndAlike.mapError (h : EndAlike R x y) (f : ε → δ) : EndAlike R (x.mapError f) (y.mapError f) := by
  cases h with
  | ok hab => exact .ok hab
  | error failure => exact .error (f failure)

theorem EndAlike.bind {f : α → Except ε γ} {g : β → Except ε ζ} (h : EndAlike R x y)
    (hf : ∀ a b, R a b → EndAlike S (f a) (g b)) : EndAlike S (x >>= f) (y >>= g) := by
  cases h with
  | ok hab => exact hf _ _ hab
  | error failure => exact .error failure

theorem EndAlike.map {f : α → γ} {g : β → ζ} (h : EndAlike R x y) (hf : ∀ a b, R a b → S (f a) (g b)) :
    EndAlike S (x.map f) (y.map g) := by
  cases h with
  | ok hab => exact .ok (hf _ _ hab)
  | error failure => exact .error failure

theorem EndAlike.exists_ok {a : α} (h : EndAlike R x y) (hx : x = .ok a) : ∃ b, y = .ok b ∧ R a b := by
  cases h with
  | ok hab => exact ⟨_, rfl, Except.ok.inj hx ▸ hab⟩
  | error failure => exact absurd hx (by simp)

theorem endAlike_refl {Q : α → α → Prop} (hrefl : ∀ a, Q a a) (x : Except ε α) : EndAlike Q x x := by
  cases x with
  | ok a => exact .ok (hrefl a)
  | error failure => exact .error failure

end EndAlike

/-! ## What is left on the trail -/

theorem Diagnostic.Sink.recordAll_nil (sink : Diagnostic.Sink) : sink.recordAll [] = sink := by
  rw [recordAll, List.append_nil]

/-- A trail continues another: some diagnostics were recorded at the end of its sink, and messages are saved
or delivered as before. -/
structure Trail.Continues (before after : Trail) (ds : List Diagnostic) : Prop where
  sink_eq : after.sink = before.sink.recordAll ds
  saves_eq : after.journal.saves = before.journal.saves

theorem Trail.continues_refl (trail : Trail) : trail.Continues trail [] :=
  ⟨trail.sink.recordAll_nil.symm, rfl⟩

theorem Trail.Continues.trans {first second third : Trail} {ds es : List Diagnostic}
    (h : first.Continues second ds) (h' : second.Continues third es) : first.Continues third (ds ++ es) := by
  constructor
  · rw [Diagnostic.Sink.recordAll_append, ← h.sink_eq, h'.sink_eq]
  · rw [h'.saves_eq, h.saves_eq]

theorem Journal.saves_log (j : Journal) (level : Level) (message : Text) :
    (j.log level message).saves = j.saves := by
  unfold log
  split
  · rfl
  · split <;> rfl

namespace Action

variable {x : Action α} {f : α → Action β} {ds es : List Diagnostic}

/-- What was found already is handed on. -/
theorem ofExcept_ok_bind (a : α) (f : α → Action β) : (ofExcept (.ok a) >>= f) = f a := rfl

section Bind

variable {trail after : Trail}

/-- After a success the next action goes on. -/
theorem bind_of_ok {a : α} (h : x trail = (.ok a, after)) : (x >>= f) trail = f a after := by
  show Action.bind x f trail = _
  rw [Action.bind, h]

/-- After a failure the next action does not happen. -/
theorem bind_of_error {failure : Failure} (h : x trail = (.error failure, after)) :
    (x >>= f) trail = (.error failure, after) := by
  show Action.bind x f trail = _
  rw [Action.bind, h]

end Bind

/-! ## Actions that check -/

/-- An action fails with the first of some faults, whatever happened before, and records nothing. -/
def Checks (P : α → Prop) (x : Action α) (faults : List Failure) : Prop :=
  ∀ trail, Decides P (x trail).1 faults ∧ trail.Continues (x trail).2 []

theorem checks_ofExcept {result : Except Failure α} (h : Decides P result faults) :
    Checks P (ofExcept result) faults := by
  intro trail
  cases h with
  | ok ha => exact ⟨.ok ha, trail.continues_refl⟩
  | error => exact ⟨.error, trail.continues_refl⟩

theorem checks_pure {a : α} (ha : P a) : Checks P (Pure.pure a : Action α) [] := fun trail =>
  ⟨.ok ha, trail.continues_refl⟩

theorem checks_log (level : Level) (message : Text) : Checks (fun _ => True) (log level message) [] := by
  intro trail
  exact ⟨.ok trivial, trail.sink.recordAll_nil.symm, Journal.saves_log _ _ _⟩

theorem Checks.imp {R : α → Prop} (h : Checks P x faults) (himp : ∀ a, P a → R a) :
    Checks R x faults := fun trail => ⟨(h trail).1.imp himp, (h trail).2⟩

theorem Checks.bind (hx : Checks P x faults) (hf : ∀ a, P a → Checks Q (f a) more) :
    Checks Q (x >>= f) (faults ++ more) := by
  intro trail
  obtain ⟨hresult, hafter⟩ := hx trail
  rcases houtcome : x trail with ⟨result, after⟩
  rw [houtcome] at hresult hafter
  cases hresult with
  | ok ha =>
      obtain ⟨hnext, hrest⟩ := hf _ ha after
      rw [bind_of_ok houtcome]
      exact ⟨hnext, hafter.trans hrest⟩
  | error =>
      rw [bind_of_error houtcome]
      exact ⟨.error, hafter⟩

/-! ## Actions that record -/

/-- An action succeeds, whatever happened before, and records certain diagnostics. -/
def Records (P : α → Prop) (x : Action α) (ds : List Diagnostic) : Prop :=
  ∀ trail, ∃ a after, x trail = (.ok a, after) ∧ P a ∧ trail.Continues after ds

/-- An action that has nothing to object to succeeds and records nothing. -/
theorem Checks.records (h : Checks P x []) : Records P x [] := by
  intro trail
  obtain ⟨hresult, hafter⟩ := h trail
  rcases hx : x trail with ⟨result, after⟩
  rw [hx] at hresult hafter
  cases hresult with
  | ok ha => exact ⟨_, after, rfl, ha, hafter⟩

theorem records_pure {a : α} (ha : P a) : Records P (Pure.pure a : Action α) [] := fun trail =>
  ⟨a, trail, rfl, ha, trail.continues_refl⟩

theorem records_record (ds : List Diagnostic) : Records (fun _ => True) (record ds) ds := fun _ =>
  ⟨(), _, rfl, trivial, rfl, rfl⟩

theorem Records.imp {R : α → Prop} (h : Records P x ds) (himp : ∀ a, P a → R a) : Records R x ds := by
  intro trail
  obtain ⟨a, after, hx, ha, hafter⟩ := h trail
  exact ⟨a, after, hx, himp a ha, hafter⟩

theorem Records.bind (hx : Records P x ds) (hf : ∀ a, P a → Records Q (f a) es) :
    Records Q (x >>= f) (ds ++ es) := by
  intro trail
  obtain ⟨a, after, hresult, ha, hafter⟩ := hx trail
  obtain ⟨b, last, hnext, hb, hlast⟩ := hf a ha after
  exact ⟨b, last, (bind_of_ok hresult).trans hnext, hb, hafter.trans hlast⟩

/-- What records nothing adds nothing. -/
theorem Records.bind_nil (h : Records P x ds) (hf : ∀ a, P a → Records Q (f a) []) :
    Records Q (x >>= f) ds := by
  rw [← List.append_nil ds]
  exact h.bind hf

theorem Records.bind_pure {g : α → β} (h : Records P x ds) (hg : ∀ a, P a → Q (g a)) :
    Records Q (x >>= fun a => Pure.pure (g a)) ds :=
  h.bind_nil fun a ha => records_pure (hg a ha)

/-- Messages may be written before anything else. -/
theorem Records.after_log {α : Type} {P : α → Prop} {x : Action α} {level : Level} {message : Text}
    (h : Records P x ds) : Records P (log level message >>= fun _ => x) ds :=
  (checks_log level message).records.bind fun _ _ => h

/-- A context changes nothing but messages. -/
theorem Records.withContext (h : Records P x ds) (context : Text) :
    Records P (x.withContext context) ds := by
  intro trail
  obtain ⟨a, after, hx, ha, hafter⟩ := h { trail with journal := trail.journal.enter context }
  refine ⟨a, { after with journal := after.journal.leave }, ?_, ha, hafter.sink_eq, hafter.saves_eq⟩
  rw [Action.withContext, hx]

/-! ## Actions that end -/

/-- However an action ends, it depends on the sink from before and on nothing else; and the action records
certain diagnostics. -/
def Ends (result : Diagnostic.Sink → Except Failure α) (x : Action α) (ds : List Diagnostic) : Prop :=
  ∀ trail, ∃ after, x trail = (result trail.sink, after) ∧ trail.Continues after ds

/-- An action succeeds, and what it answers depends on the sink from before alone. -/
def Answers (answer : Diagnostic.Sink → α) (x : Action α) (ds : List Diagnostic) : Prop :=
  Ends (fun sink => .ok (answer sink)) x ds

variable {result : Diagnostic.Sink → Except Failure α} {answer : Diagnostic.Sink → α}

theorem Records.answers {a : α} (h : Records (fun b => b = a) x ds) : Answers (fun _ => a) x ds := by
  intro trail
  obtain ⟨_, after, hx, rfl, hafter⟩ := h trail
  exact ⟨after, hx, hafter⟩

theorem answers_pure (a : α) : Answers (fun _ => a) (Pure.pure a : Action α) [] := fun trail =>
  ⟨trail, rfl, trail.continues_refl⟩

theorem answers_getSink : Answers id getSink [] := fun trail => ⟨trail, rfl, trail.continues_refl⟩

theorem ends_fail (failure : Failure) : Ends (fun _ => .error failure) (fail failure : Action α) [] :=
  fun trail => ⟨trail, rfl, trail.continues_refl⟩

/-- What comes after a failure does not happen. -/
theorem Ends.bind_error {failure : Failure} (hx : Ends (fun _ => .error failure) x ds) :
    Ends (fun _ => .error failure) (x >>= f) ds := by
  intro trail
  obtain ⟨after, hresult, hafter⟩ := hx trail
  exact ⟨after, bind_of_error hresult, hafter⟩

/-- The second action finds in the sink what the first one has recorded. -/
theorem Answers.bind_ends {next : Diagnostic.Sink → Diagnostic.Sink → Except Failure β}
    {last : Diagnostic.Sink → Except Failure β} (hx : Answers answer x ds)
    (hf : ∀ sink, Ends (next sink) (f (answer sink)) es)
    (hlast : ∀ sink, next sink (sink.recordAll ds) = last sink) : Ends last (x >>= f) (ds ++ es) := by
  intro trail
  obtain ⟨after, hresult, hafter⟩ := hx trail
  obtain ⟨final, hnext, hfinal⟩ := hf trail.sink after
  rw [hafter.sink_eq, hlast] at hnext
  exact ⟨final, (bind_of_ok hresult).trans hnext, hafter.trans hfinal⟩

theorem Answers.bind {next : Diagnostic.Sink → Diagnostic.Sink → β} {last : Diagnostic.Sink → β}
    (hx : Answers answer x ds) (hf : ∀ sink, Answers (next sink) (f (answer sink)) es)
    (hlast : ∀ sink, next sink (sink.recordAll ds) = last sink) : Answers last (x >>= f) (ds ++ es) :=
  hx.bind_ends hf fun sink => congrArg Except.ok (hlast sink)

theorem Answers.bind_nil {next : Diagnostic.Sink → Diagnostic.Sink → β} {last : Diagnostic.Sink → β}
    (hx : Answers answer x ds) (hf : ∀ sink, Answers (next sink) (f (answer sink)) [])
    (hlast : ∀ sink, next sink (sink.recordAll ds) = last sink) : Answers last (x >>= f) ds := by
  rw [← List.append_nil ds]
  exact hx.bind hf hlast

theorem Answers.bind_pure {g : α → β} (hx : Answers answer x ds) :
    Answers (fun sink => g (answer sink)) (x >>= fun a => Pure.pure (g a)) ds :=
  hx.bind_nil (fun sink => answers_pure (g (answer sink))) fun _ => rfl

/-- The result is changed unless there is none. -/
theorem Ends.bind_pure {g : α → β} (hx : Ends result x ds) :
    Ends (fun sink => (result sink).map g) (x >>= fun a => Pure.pure (g a)) ds := by
  intro trail
  obtain ⟨after, hresult, hafter⟩ := hx trail
  refine ⟨after, ?_, hafter⟩
  show (x >>= fun a => Pure.pure (g a)) trail = ((result trail.sink).map g, after)
  cases hending : result trail.sink with
  | ok a =>
      rw [hending] at hresult
      exact bind_of_ok hresult
  | error failure =>
      rw [hending] at hresult
      exact bind_of_error hresult

theorem Answers.after_log {α : Type} {answer : Diagnostic.Sink → α} {x : Action α} {level : Level}
    {message : Text} (h : Answers answer x ds) : Answers answer (log level message >>= fun _ => x) ds := by
  have hlog : Answers (fun _ => ()) (log level message) [] :=
    ((checks_log level message).records.imp fun _ _ => rfl).answers
  exact hlog.bind (fun _ => h) fun sink => congrArg answer sink.recordAll_nil

/-- How an action ended is answered as a result. -/
theorem Ends.attempt (h : Ends result x ds) : Answers result x.attempt ds := by
  intro trail
  obtain ⟨after, hx, hafter⟩ := h trail
  refine ⟨after, ?_, hafter⟩
  rw [Action.attempt, hx]

end Action

end StorageFlow
