import TodoLists.Proofs.CommandLine.Printing
import TodoLists.Proofs.Config.Saving

/-!
# What comes of an action

An action on a console ends with a result or with a fault. `Ends` says what is true of either, and
there is one rule for it for every way to make an action. Most steps of a command only look at the
console and show something; these are set apart, since whatever comes of them the disk is as it was.
-/

namespace TodoLists.Console

variable {α β : Type} {c : Console} {done : α → Console → Prop} {failed : Console → Prop}

/-- The action comes to a result for which `done` is true, or to a fault after which `failed` is. -/
def Ends (a : Action α) (c : Console) (done : α → Console → Prop) (failed : Console → Prop) :
    Prop :=
  match a.run.run c with
  | (.ok v, c') => done v c'
  | (.error _, c') => failed c'

/-! ### The steps -/

theorem ends_pure (v : α) : Ends (pure v) c done failed ↔ done v c := Iff.rfl

theorem ends_throw (f : Fault) : Ends (throw f) c done failed ↔ failed c := Iff.rfl

theorem ends_get {done : Console → Console → Prop} : Ends get c done failed ↔ done c c := Iff.rfl

theorem ends_modify (f : Console → Console) {done : Unit → Console → Prop} :
    Ends (modify f) c done failed ↔ done () (f c) := Iff.rfl

theorem ends_ofExcept {x : Except Fault α} : Ends (ofExcept x) c done failed ↔
    (∀ v, x = .ok v → done v c) ∧ ((∃ f, x = .error f) → failed c) := by
  cases x with
  | error f => exact ⟨fun h => ⟨nofun, fun _ => h⟩, fun h => h.2 ⟨f, rfl⟩⟩
  | ok v =>
    refine ⟨fun h => ⟨?_, nofun⟩, fun h => h.1 v rfl⟩
    rintro _ ⟨⟩
    exact h

theorem ends_ofExcept_ok {v : α} : Ends (ofExcept (.ok v)) c done failed ↔ done v c := Iff.rfl

/-- A row of steps goes on from wherever the first one leads. -/
theorem ends_bind {a : Action α} {k : α → Action β} {done : β → Console → Prop} :
    Ends (a >>= k) c done failed ↔
      Ends a c (fun v c' => Ends (k v) c' done failed) failed := by
  rw [Ends, Ends, ExceptT.run_bind, StateT.run_bind]
  rcases a.run.run c with ⟨f | v, c'⟩
  · exact Iff.rfl
  · exact Iff.rfl

theorem Ends.imp {a : Action α} {done' : α → Console → Prop} {failed' : Console → Prop}
    (h : Ends a c done failed) (hdone : ∀ v c', done v c' → done' v c')
    (hfailed : ∀ c', failed c' → failed' c') : Ends a c done' failed' := by
  rw [Ends] at h ⊢
  rcases hrun : a.run.run c with ⟨f | v, c'⟩
  · rw [hrun] at h
    exact hfailed c' h
  · rw [hrun] at h
    exact hdone v c' h

theorem ends_append (out : List Output) {done : Unit → Console → Prop} :
    Ends (append out) c done failed ↔ done () { c with shown := c.shown ++ out } := Iff.rfl

theorem ends_put_of_shows {o : Output} (h : c.screen.shows o = true)
    {done : Unit → Console → Prop} :
    Ends (put o) c done failed ↔ done () { c with shown := c.shown ++ [o] } := by
  rw [put, ends_bind, ends_get, if_pos h, ends_append]

/-- What the screen cannot show is a fault. -/
theorem ends_put (o : Output) {done : Unit → Console → Prop} : Ends (put o) c done failed ↔
    (c.screen.shows o = true → done () { c with shown := c.shown ++ [o] }) ∧
      (c.screen.shows o = false → failed c) := by
  cases hshows : c.screen.shows o with
  | true =>
    rw [ends_put_of_shows hshows]
    exact ⟨fun h => ⟨fun _ => h, nofun⟩, fun h => h.1 rfl⟩
  | false =>
    rw [put, ends_bind, ends_get, if_neg (ne_true_of_eq_false hshows), ends_throw]
    exact ⟨fun h => ⟨nofun, fun _ => h⟩, fun h => h.2 rfl⟩

theorem ends_say (text : String) {done : Unit → Console → Prop} : Ends (say text) c done failed ↔
    (c.screen.shows (.line text) = true → done () { c with shown := c.shown ++ [.line text] }) ∧
      (c.screen.shows (.line text) = false → failed c) :=
  ends_put (.line text)

theorem ends_say_of_shows {text : String} (h : c.screen.shows (.line text) = true)
    {done : Unit → Console → Prop} :
    Ends (say text) c done failed ↔ done () { c with shown := c.shown ++ [.line text] } :=
  ends_put_of_shows h

/-- What was done on a desk takes effect, also when it failed. -/
theorem ends_commit {r : Except Fault α × Desk} : Ends (commit r) c done failed ↔
    (∀ v, r.1 = .ok v → done v { c with disk := r.2.disk, supply := r.2.supply }) ∧
      ((∃ f, r.1 = .error f) → failed { c with disk := r.2.disk, supply := r.2.supply }) := by
  rw [commit, ends_bind, ends_modify, ends_ofExcept]

theorem ends_onDisk {change : Disk → Except Fault α × Disk} : Ends (onDisk change) c done failed ↔
    (∀ v, (change c.disk).1 = .ok v → done v { c with disk := (change c.disk).2 }) ∧
      ((∃ f, (change c.disk).1 = .error f) → failed { c with disk := (change c.disk).2 }) := by
  rw [onDisk, ends_bind, ends_get, ends_bind, ends_modify, ends_ofExcept]

/-! ### Looking -/

/-- The second console has the disk, the supply, the input and the screen of the first. -/
structure Same (c c' : Console) : Prop where
  disk : c'.disk = c.disk
  supply : c'.supply = c.supply
  input : c'.input = c.input
  screen : c'.screen = c.screen

theorem Same.refl (c : Console) : c.Same c := ⟨rfl, rfl, rfl, rfl⟩

theorem Same.trans {c' c'' : Console} (h : c.Same c') (h' : c'.Same c'') : c.Same c'' :=
  ⟨h'.disk.trans h.disk, h'.supply.trans h.supply, h'.input.trans h.input,
    h'.screen.trans h.screen⟩

/-- An action that only looks at things and shows something. -/
def Looks (a : Action α) : Prop := ∀ c : Console, Ends a c (fun _ c' => c.Same c') c.Same

theorem looks_pure (v : α) : Looks (pure v) := Same.refl

theorem looks_ofExcept (x : Except Fault α) : Looks (ofExcept x) :=
  fun c => ends_ofExcept.2 ⟨fun _ _ => .refl c, fun _ => .refl c⟩

theorem looks_put (o : Output) : Looks (put o) :=
  fun c => (ends_put o).2 ⟨fun _ => ⟨rfl, rfl, rfl, rfl⟩, fun _ => .refl c⟩

theorem looks_say (text : String) : Looks (say text) := looks_put (.line text)

theorem looks_get : Looks get := Same.refl

theorem Looks.bind {a : Action α} {k : α → Action β} (ha : Looks a) (hk : ∀ v, Looks (k v)) :
    Looks (a >>= k) := by
  intro c
  rw [ends_bind]
  refine (ha c).imp (fun v c' h => ?_) fun c' h => h
  exact (hk v c').imp (fun _ _ h' => h.trans h') fun _ h' => h.trans h'

theorem Looks.ite {a b : Action α} {p : Prop} [Decidable p] (ha : Looks a) (hb : Looks b) :
    Looks (if p then a else b) := by
  split
  · exact ha
  · exact hb

/-! ### Asking -/

/-- The console on which a question was asked and lines were read up to an answer. -/
def asked (c : Console) (question : String) : Console :=
  { c with shown := c.shown ++ [.question question], input := (firstAnswer c.input).2 }

/-- A question is answered by the first line that is an answer, or else fails. -/
theorem ends_confirm_iff {question : String} {done : Bool → Console → Prop} :
    Ends (confirm question) c done failed ↔
      (∀ b, (firstAnswer c.input).1 = some b → done b (c.asked question)) ∧
        ((firstAnswer c.input).1 = none → failed { c.asked question with
          pause := c.pause <|> some (c.shown ++ [.question question], c.disk) }) := by
  rw [confirm, ends_bind, ends_put_of_shows (c.screen.shows_question question), ends_bind, ends_get,
    asked]
  rcases firstAnswer c.input with ⟨answer | b, rest⟩
  · simp only
    rw [ends_bind, ends_modify, ends_bind, noteEnd, ends_modify, ends_throw]
    exact ⟨fun h => ⟨nofun, fun _ => h⟩, fun h => h.2 trivial⟩
  · simp only
    rw [ends_bind, ends_modify, ends_pure]
    refine ⟨fun h => ⟨?_, nofun⟩, fun h => h.1 b rfl⟩
    rintro _ ⟨⟩
    exact h

/-- A question is answered by the first line that is an answer. -/
theorem ends_confirm {question : String} {done : Bool → Console → Prop}
    (hdone : ∀ b c', (firstAnswer c.input).1 = some b → c'.disk = c.disk → c'.screen = c.screen →
      done b c')
    (hfailed : ∀ c', c'.disk = c.disk → failed c') :
    Ends (confirm question) c done failed :=
  ends_confirm_iff.2 ⟨fun b hb => hdone b _ hb rfl rfl, fun _ => hfailed _ rfl⟩

end TodoLists.Console

namespace TodoLists.CommandLine

open Console

/-- An action is concluded with what it shows, and a fault is reported behind that. -/
theorem conclude_cases {c : Console} {a : Action Unit} {done failed : Console → Prop}
    (explain : Cause → String) (h : Ends a c (fun _ => done) failed) :
    ((conclude explain a c).1 = 0 ∧ done (conclude explain a c).2) ∨
      (conclude explain a c).1 = 1 ∧ ∃ c' f, failed c' ∧ (conclude explain a c).2 =
        { c' with shown := c'.shown ++ (report explain f).map .line } := by
  rw [Ends] at h
  rw [conclude]
  rcases hrun : a.run.run c with ⟨f | v, c'⟩
  · rw [hrun] at h
    refine Or.inr ⟨rfl, c', f, h, ?_⟩
    simp only [takeWhile_report]
  · rw [hrun] at h
    exact Or.inl ⟨rfl, h⟩

/-- How an action is concluded. -/
theorem conclude_of_ends {c : Console} {a : Action Unit} {done failed : Console → Prop}
    (explain : Cause → String) (h : Ends a c (fun _ => done) failed) :
    ((conclude explain a c).1 = 0 ∧ done (conclude explain a c).2) ∨
      (conclude explain a c).1 = 1 ∧ ∃ c', failed c' ∧ (conclude explain a c).2.disk = c'.disk := by
  refine (conclude_cases explain h).imp_right fun ⟨hcode, c', f, hfailed, hc⟩ => ?_
  exact ⟨hcode, c', hfailed, by rw [hc]⟩

end TodoLists.CommandLine
