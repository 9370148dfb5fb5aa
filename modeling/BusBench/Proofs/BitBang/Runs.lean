import BusBench.BitBang.Gpio

/-!
# Runs of programs that drive lines

A program that drives lines turns one state of the lines into another and ends with an answer or a
failure. Everything about a bit-banged bus is said with this one relation, and programs are taken
apart with the rules for `pure`, bind and loops below.

* `Drive.Runs`: the run of a program from a state.
* `Drive.Runs.bind`, `Drive.Runs.forM_cons`, `Drive.Runs.filterM`: longer programs from their parts.
-/

namespace BusBench.BitBang.Drive

variable {σ α β : Type}

/-- Started in `s`, the program ends with `result` in `s'`. -/
def Runs (program : Drive σ α) (s : σ) (result : Except BitError α) (s' : σ) : Prop :=
  program.run s = (result, s')

namespace Runs

variable {s s' s'' : σ} {result : Except BitError β}

theorem pure (a : α) : Runs (Pure.pure a : Drive σ α) s (.ok a) s :=
  rfl

theorem throw (e : BitError) : Runs (MonadExcept.throw e : Drive σ α) s (.error e) s :=
  rfl

theorem bind {program : Drive σ α} {next : α → Drive σ β} {a : α}
    (h : Runs program s (.ok a) s') (hNext : Runs (next a) s' result s'') :
    Runs (program >>= next) s result s'' := by
  unfold Runs at h
  change ExceptT.run (program >>= next) s = _
  rw [ExceptT.run_bind]
  change StateT.bind _ _ s = _
  unfold StateT.bind
  rw [h]
  exact hNext

/-- What comes after a failure is not run. -/
theorem bind_error {program : Drive σ α} {next : α → Drive σ β} {e : BitError}
    (h : Runs program s (.error e) s') : Runs (program >>= next) s (.error e) s' := by
  unfold Runs at h
  change ExceptT.run (program >>= next) s = _
  rw [ExceptT.run_bind]
  change StateT.bind _ _ s = _
  unfold StateT.bind
  rw [h]
  rfl

/-- How a program ends can be looked at, and passed on later. -/
theorem attempt {program : Drive σ β} (h : Runs program s result s') :
    Runs (ExceptT.lift program.run : Drive σ (Except BitError β)) s (.ok result) s' := by
  unfold Runs at h
  change (fun p : Except BitError β × σ => (Except.ok p.1, p.2)) (program.run s) = _
  rw [h]

theorem liftExcept (result : Except BitError β) :
    Runs (liftExcept result : Drive σ β) s result s := by
  cases result <;> rfl

theorem forM_nil (f : α → Drive σ Unit) : Runs (([] : List α).forM f) s (.ok ()) s :=
  rfl

theorem forM_cons {f : α → Drive σ Unit} {a : α} {as : List α} {result : Except BitError Unit}
    (h : Runs (f a) s (.ok ()) s') (hRest : Runs (as.forM f) s' result s'') :
    Runs ((a :: as).forM f) s result s'' :=
  bind h hRest

theorem filterAuxM {f : α → Drive σ Bool} {p : α → Bool} {Inv : σ → Prop} (as acc : List α)
    (h : ∀ a ∈ as, ∀ s, Inv s → ∃ s', Runs (f a) s (.ok (p a)) s' ∧ Inv s') (hInv : Inv s) :
    ∃ s', Runs (as.filterAuxM f acc) s (.ok ((as.filter p).reverse ++ acc)) s' ∧ Inv s' := by
  induction as generalizing acc s with
  | nil => exact ⟨s, Runs.pure acc, hInv⟩
  | cons a as ih =>
    obtain ⟨s', hRun, hInv'⟩ := h a List.mem_cons_self s hInv
    obtain ⟨s'', hRest, hInv''⟩ := ih (bif p a then a :: acc else acc)
      (fun b hb => h b (List.mem_cons_of_mem a hb)) hInv'
    refine ⟨s'', Runs.bind hRun ?_, hInv''⟩
    cases hp : p a <;> simpa [hp] using hRest

/-- A filter whose condition answers `p` and keeps an invariant. -/
theorem filterM {f : α → Drive σ Bool} {p : α → Bool} {Inv : σ → Prop} (as : List α)
    (h : ∀ a ∈ as, ∀ s, Inv s → ∃ s', Runs (f a) s (.ok (p a)) s' ∧ Inv s') (hInv : Inv s) :
    ∃ s', Runs (as.filterM f) s (.ok (as.filter p)) s' ∧ Inv s' := by
  obtain ⟨s', hRun, hInv'⟩ := filterAuxM as [] h hInv
  refine ⟨s', Runs.bind hRun ?_, hInv'⟩
  rw [List.append_nil, List.reverse_reverse]
  exact Runs.pure _

end Runs

end BusBench.BitBang.Drive
