import BusBench.Board.Recording
import BusBench.Proofs.Resources.Accounts

/-!
# What a recording board hands out

A recording board refuses a pin only where a setting says so, or where somebody holds it; and what
somebody holds is open by the exchanges.

* `Recording.answer_keeps`: the requests that have nothing to do with pins being held.
* `Recording.Agrees`: the pins that are claimed are open.
* `Recording.grants_pin`: a pin that is not open is granted.
-/

namespace BusBench.Recording

/-! ## Requests that claim no pin -/

variable {s : State} {α : Type}

/-- The call does not touch what decides about claims of pins. -/
def Keeps (s s' : State) : Prop :=
  s'.settings = s.settings ∧ s'.claimed = s.claimed

theorem guarded_keeps {word : String} {call : State → Except BusError α × State}
    (h : ∀ s, Keeps s (call s).2) : Keeps s (guarded word s call).2 := by
  unfold guarded count
  dsimp only
  split
  · exact ⟨rfl, rfl⟩
  · exact h _

theorem claim_keeps (resource : String) : Keeps s (claim resource s).2 := by
  unfold claim
  split
  · exact ⟨rfl, rfl⟩
  · exact ⟨rfl, rfl⟩

theorem lock_keeps (resource word : String) : Keeps s (lock resource word s).2 := by
  unfold lock count
  dsimp only
  split
  · exact ⟨rfl, rfl⟩
  · exact ⟨rfl, rfl⟩

theorem addressed_keeps {word : String} {address : UInt8} {answer : α} :
    Keeps s (addressed word address answer s).2 := by
  refine guarded_keeps fun s => ?_
  split
  · exact ⟨rfl, rfl⟩
  · exact ⟨rfl, rfl⟩

theorem answer_keeps {request : Request}
    (h : ∀ p, request ≠ .pin p .claim ∧ request ≠ .pin p .release) :
    Keeps s (answer request s).2 := by
  cases request with
  | i2c backing call =>
    cases call with
    | claim => exact claim_keeps _
    | lock => exact lock_keeps _ _
    | release | unlock => exact ⟨rfl, rfl⟩
    | setFrequency => exact guarded_keeps fun _ => ⟨rfl, rfl⟩
    | write | read | writeRead => exact addressed_keeps
  | spi backing call =>
    cases call with
    | claim => exact claim_keeps _
    | lock => exact lock_keeps _ _
    | release | unlock => exact ⟨rfl, rfl⟩
    | configure | transfer => exact guarded_keeps fun _ => ⟨rfl, rfl⟩
  | uart call =>
    cases call with
    | claim => exact claim_keeps _
    | release | available | clear | read => exact ⟨rfl, rfl⟩
    | configure => exact guarded_keeps fun _ => ⟨rfl, rfl⟩
    | write =>
      refine guarded_keeps fun s => ?_
      dsimp only
      split
      · exact ⟨rfl, rfl⟩
      · exact ⟨rfl, rfl⟩
  | oneWire call =>
    cases call with
    | claim => exact claim_keeps _
    | release => exact ⟨rfl, rfl⟩
    | reset | read | search => exact guarded_keeps fun _ => ⟨rfl, rfl⟩
    | write =>
      refine guarded_keeps fun s => ?_
      split
      · exact ⟨rfl, rfl⟩
      · exact ⟨rfl, rfl⟩
  | pin p call =>
    cases call with
    | claim => exact absurd rfl (h p).1
    | release => exact absurd rfl (h p).2
    | output | input | sample => exact guarded_keeps fun _ => ⟨rfl, rfl⟩
  | _ => exact ⟨rfl, rfl⟩

/-! ## Pins -/

/-- No setting refuses anything, and the pins that are claimed are among these holdings. -/
structure Agrees (s : State) (holdings : List Holding) : Prop where
  unavailable : s.settings.unavailable = []
  claimed : ∀ p ∈ s.claimed, .pin p ∈ holdings.map (·.resource)

variable {holdings : List Holding} {p : Pin}

theorem claimPin_of_not_mem (h : Agrees s holdings) (hFree : p ∉ s.claimed) :
    ∃ s', claimPin p s = (.ok (), s') ∧ s'.settings = s.settings ∧ s'.claimed = p :: s.claimed := by
  have hContains : ¬ s.claimed.contains p = true := by rwa [List.contains_iff_mem]
  have hLookup : s.settings.unavailable.lookup p.name = none := by
    rw [h.unavailable]
    rfl
  refine ⟨{ s with locked := s.locked.filter (· != p.name), claimed := p :: s.claimed }, ?_, rfl,
    rfl⟩
  unfold claimPin claim
  rw [if_neg hContains, hLookup]

theorem mem_openAfter {exchange : Exchange} (h : .pin p ∈ holdings.map (·.resource))
    (hStays : exchange.request.role ≠ .releases (.pin p)) :
    .pin p ∈ (exchange.openAfter holdings).map (·.resource) := by
  unfold Exchange.openAfter
  split
  · split
    · exact List.mem_cons_of_mem _ h
    · exact h
  · next resource hRole =>
    obtain ⟨holding, hMem, hResource⟩ := List.mem_map.mp h
    refine List.mem_map.mpr ⟨holding, List.mem_filter.mpr ⟨hMem, ?_⟩, hResource⟩
    rw [decide_eq_true_iff, hResource]
    rintro rfl
    exact hStays hRole
  · exact h

theorem eq_release_of_role {request : Request} (h : request.role = .releases (.pin p)) :
    request = .pin p .release := by
  cases request with
  | pin q call =>
    cases call <;> cases h
    rfl
  | i2c backing call | spi backing call | uart call | oneWire call =>
    cases call <;> cases h
  | _ => cases h

theorem Agrees.answer (h : Agrees s holdings) (request : Request) :
    Agrees (Recording.answer request s).2
      (Exchange.openAfter ⟨request, (Recording.answer request s).1⟩ holdings) := by
  by_cases hPin : ∀ p, request ≠ .pin p .claim ∧ request ≠ .pin p .release
  · obtain ⟨hSettings, hClaimed⟩ := answer_keeps (s := s) hPin
    refine ⟨hSettings ▸ h.unavailable, fun p hMem => ?_⟩
    rw [hClaimed] at hMem
    exact mem_openAfter (h.claimed p hMem) fun hRole => (hPin p).2 (eq_release_of_role hRole)
  · simp only [not_forall, Classical.not_and_iff_not_or_not, not_not] at hPin
    obtain ⟨q, rfl | rfl⟩ := hPin
    · by_cases hFree : q ∈ s.claimed
      · have hRefused : Recording.answer (.pin q .claim) s = (.error (.pinBusy q), s) :=
          if_pos (List.contains_iff_mem.mpr hFree)
        rw [hRefused]
        exact h
      · obtain ⟨s', hGranted, hSettings, hClaimed⟩ := claimPin_of_not_mem h hFree
        have hAnswer : Recording.answer (.pin q .claim) s = (.ok (), s') := hGranted
        rw [hAnswer]
        refine ⟨hSettings ▸ h.unavailable, fun p hMem => ?_⟩
        rw [hClaimed] at hMem
        rcases List.mem_cons.mp hMem with rfl | hMem
        · exact List.mem_cons_self
        · exact List.mem_cons_of_mem _ (h.claimed p hMem)
    · refine ⟨h.unavailable, fun p hMem => ?_⟩
      obtain ⟨hMem, hOther⟩ := List.mem_filter.mp hMem
      refine mem_openAfter (h.claimed p hMem) fun hRole => ?_
      cases eq_release_of_role hRole
      exact absurd hOther (by simp)

theorem Agrees.answers {name : String} {header : Header} {trace : List Exchange} {s' : State}
    (h : Agrees s holdings) (hAnswers : (board name header).Answers s trace s') :
    Agrees s' (trace.foldl (fun holdings exchange => exchange.openAfter holdings) holdings) := by
  induction hAnswers generalizing holdings with
  | nil s => exact h
  | cons request hAnswers ih => exact ih (h.answer request)

/-- A recording board that is told to refuse nothing grants every pin that is not open. -/
theorem grants_pin {name : String} {header : Header} {trace : List Exchange} {s' : State}
    (h : Agrees s holdings) (hAnswers : (board name header).Answers s trace s')
    (hClosed : .pin p ∉
      (trace.foldl (fun holdings exchange => exchange.openAfter holdings) holdings).map
        (·.resource)) :
    ((board name header).answer (.pin p .claim) s').1 = .ok () := by
  have hAgrees := h.answers hAnswers
  obtain ⟨s'', hGranted, -⟩ :=
    claimPin_of_not_mem hAgrees fun hMem => hClosed (hAgrees.claimed p hMem)
  exact congrArg Prod.fst hGranted

end BusBench.Recording
