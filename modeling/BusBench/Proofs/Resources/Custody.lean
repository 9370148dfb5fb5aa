import BusBench.Proofs.World.Monitors

/-!
# Who holds what

A board hands out buses and pins. What is handed out has to be given back before it can be handed
out again, and a bus with a lock has to be locked before it transfers anything.

* `Request.role`: what a request has to do with what is handed out.
* `Custody`: what is held at present.
* `custody`: the monitor of claims, releases and locks.
* `Act.Unlocks`: programs that give back the lock under which they begin.
-/

namespace BusBench

/-! ## Resources -/

inductive Bus where
  | i2c (backing : Backing)
  | spi (backing : Backing)
  | uart
  | oneWire
  deriving DecidableEq, Repr

/-- What a board hands out. -/
inductive Resource where
  | bus (bus : Bus)
  | pin (pin : Pin)
  deriving DecidableEq, Repr

/-- A resource with the pins that it takes up. -/
structure Holding where
  resource : Resource
  pins : List Pin
  deriving DecidableEq, Repr

/-- AUX and chip select are claimed for themselves, all other pins with a bus. -/
def Holding.Separate : Holding → Prop
  | ⟨.bus _, pins⟩ => pins.Nodup ∧ .aux ∉ pins ∧ .cs ∉ pins
  | ⟨.pin pin, pins⟩ => pins = [pin] ∧ pin ∈ [Pin.aux, .cs]

instance : DecidablePred Holding.Separate
  | ⟨.bus _, pins⟩ => inferInstanceAs (Decidable (pins.Nodup ∧ .aux ∉ pins ∧ .cs ∉ pins))
  | ⟨.pin pin, pins⟩ => inferInstanceAs (Decidable (pins = [pin] ∧ pin ∈ [Pin.aux, .cs]))

theorem Holding.separate_bus {bus : Bus} {pins : List Pin} :
    Separate ⟨.bus bus, pins⟩ ↔ pins.Nodup ∧ .aux ∉ pins ∧ .cs ∉ pins :=
  Iff.rfl

theorem Holding.Separate.not_mem {bus : Bus} {pins : List Pin} {pin : Pin}
    (h : Separate ⟨.bus bus, pins⟩) (hUser : pin ∈ [Pin.aux, .cs]) : pin ∉ pins := by
  obtain ⟨-, hAux, hSelect⟩ := h
  rcases List.mem_cons.mp hUser with rfl | hUser
  · exact hAux
  · rw [List.mem_singleton.mp hUser]
    exact hSelect

theorem Holding.Separate.nodup {holding : Holding} (h : holding.Separate) : holding.pins.Nodup := by
  obtain ⟨bus | pin, pins⟩ := holding
  · exact h.1
  · rw [h.1]
    exact List.nodup_cons.mpr ⟨List.not_mem_nil, List.nodup_nil⟩

/-! ## Requests -/

/-- What a request has to do with resources. -/
inductive Role where
  | claims (holding : Holding)
  | releases (resource : Resource)
  | locks (bus : Bus)
  | unlocks (bus : Bus)
  /-- Takes place under the lock of the bus. -/
  | transfers (bus : Bus)
  | uses (resource : Resource)
  | free
  deriving DecidableEq, Repr

def I2cCall.role (bus : Bus) : I2cCall → Role
  | claim clock data _ => .claims ⟨.bus bus, [clock, data]⟩
  | release => .releases (.bus bus)
  | lock => .locks bus
  | unlock => .unlocks bus
  | setFrequency _ => .uses (.bus bus)
  | write .. | read .. | writeRead .. => .transfers bus

def SpiCall.role (bus : Bus) : SpiCall → Role
  | claim => .claims ⟨.bus bus, [.clk, .mosi, .miso]⟩
  | release => .releases (.bus bus)
  | lock => .locks bus
  | unlock => .unlocks bus
  | configure _ | transfer _ => .transfers bus

def UartCall.role : UartCall → Role
  | claim tx rx _ => .claims ⟨.bus .uart, [tx, rx]⟩
  | release => .releases (.bus .uart)
  | configure _ | write _ | read _ | available | clear => .uses (.bus .uart)

def OneWireCall.role : OneWireCall → Role
  | claim pin => .claims ⟨.bus .oneWire, [pin]⟩
  | release => .releases (.bus .oneWire)
  | reset | write _ | read _ | search => .uses (.bus .oneWire)

def PinCall.role (pin : Pin) : PinCall → Role
  | claim => .claims ⟨.pin pin, [pin]⟩
  | release => .releases (.pin pin)
  | output _ | input | sample => .uses (.pin pin)

def Request.role : Request → Role
  | i2c backing call => call.role (.i2c backing)
  | spi backing call => call.role (.spi backing)
  | uart call => call.role
  | oneWire call => call.role
  | .pin p call => call.role p
  | power _ | pullups _ | modeLed _ | voltage _ | delay _ => .free

/-- Whether the answer grants a claim or a lock. -/
def Exchange.granted : Exchange → Bool
  | ⟨.i2c _ (.claim ..), answer⟩ => Except.isOk (α := Unit) answer
  | ⟨.i2c _ .lock, answer⟩ => answer
  | ⟨.spi _ .claim, answer⟩ => Except.isOk (α := Unit) answer
  | ⟨.spi _ .lock, answer⟩ => answer
  | ⟨.uart (.claim ..), answer⟩ => Except.isOk (α := Unit) answer
  | ⟨.oneWire (.claim _), answer⟩ => Except.isOk (α := Unit) answer
  | ⟨.pin _ .claim, answer⟩ => Except.isOk (α := Unit) answer
  | _ => false

/-! ## Custody -/

/-- What is held of a board. -/
structure Custody where
  bus? : Option Bus := none
  /-- Whether the bus is locked. -/
  locked : Bool := false
  /-- The pins that are held for themselves. -/
  pins : List Pin := []
  deriving DecidableEq, Repr

namespace Custody

def Holds (s : Custody) : Resource → Prop
  | .bus bus => s.bus? = some bus
  | .pin pin => pin ∈ s.pins

instance (s : Custody) : DecidablePred s.Holds
  | .bus bus => inferInstanceAs (Decidable (s.bus? = some bus))
  | .pin pin => inferInstanceAs (Decidable (pin ∈ s.pins))

/-- Whether a resource may be claimed: one bus at a time, and every pin once. -/
def Allows (s : Custody) : Resource → Prop
  | .bus _ => s.bus? = none
  | .pin pin => pin ∉ s.pins

instance (s : Custody) : DecidablePred s.Allows
  | .bus _ => inferInstanceAs (Decidable (s.bus? = none))
  | .pin pin => inferInstanceAs (Decidable (pin ∉ s.pins))

def add (s : Custody) : Resource → Custody
  | .bus bus => { s with bus? := some bus }
  | .pin pin => { s with pins := pin :: s.pins }

def remove (s : Custody) : Resource → Custody
  | .bus _ => { s with bus? := none }
  | .pin pin => { s with pins := s.pins.erase pin }

/-- What becomes of custody in an exchange; `none` if the exchange must not happen. -/
def step (exchange : Exchange) (s : Custody) : Option Custody :=
  match exchange.request.role with
  | .claims holding =>
    if holding.Separate ∧ s.Allows holding.resource ∧ s.locked = false then
      some (if exchange.granted then s.add holding.resource else s)
    else none
  | .releases resource =>
    if s.Holds resource ∧ s.locked = false then some (s.remove resource) else none
  | .locks bus =>
    if s.bus? = some bus ∧ s.locked = false then some { s with locked := exchange.granted }
    else none
  | .unlocks bus =>
    if s.bus? = some bus ∧ s.locked = true then some { s with locked := false } else none
  | .transfers bus => if s.bus? = some bus ∧ s.locked = true then some s else none
  | .uses resource => if s.Holds resource then some s else none
  | .free => some s

end Custody

/-- Nothing is claimed twice, nothing is given back or used that is not held, and transfers happen
under the lock. -/
def custody : Monitor Custody :=
  ⟨Custody.step⟩

namespace Custody

@[simp] theorem add_locked (s : Custody) (resource : Resource) :
    (s.add resource).locked = s.locked := by
  cases resource <;> rfl

@[simp] theorem remove_locked (s : Custody) (resource : Resource) :
    (s.remove resource).locked = s.locked := by
  cases resource <;> rfl

theorem remove_add_bus {s : Custody} {bus : Bus} (hBus : s.bus? = none) :
    (s.add (.bus bus)).remove (.bus bus) = s := by
  obtain ⟨bus?, locked, pins⟩ := s
  exact congrArg (Custody.mk · locked pins) hBus.symm

/-! ### Steps -/

variable {s : Custody} {request : Request} {resource : Resource} {holding : Holding} {bus : Bus}

theorem step_claims (hRole : request.role = .claims holding) (hSeparate : holding.Separate)
    (hAllows : s.Allows holding.resource) (hLocked : s.locked = false) (answer : request.Answer) :
    custody.step ⟨request, answer⟩ s =
      some (if Exchange.granted ⟨request, answer⟩ then s.add holding.resource else s) := by
  simp only [custody, step, hRole]
  rw [if_pos ⟨hSeparate, hAllows, hLocked⟩]

theorem step_releases (hRole : request.role = .releases resource) (hHolds : s.Holds resource)
    (hLocked : s.locked = false) (answer : request.Answer) :
    custody.step ⟨request, answer⟩ s = some (s.remove resource) := by
  simp only [custody, step, hRole]
  rw [if_pos ⟨hHolds, hLocked⟩]

theorem step_locks (hRole : request.role = .locks bus) (hBus : s.bus? = some bus)
    (hLocked : s.locked = false) (answer : request.Answer) :
    custody.step ⟨request, answer⟩ s =
      some { s with locked := Exchange.granted ⟨request, answer⟩ } := by
  simp only [custody, step, hRole]
  rw [if_pos ⟨hBus, hLocked⟩]

theorem step_unlocks (hRole : request.role = .unlocks bus) (hBus : s.bus? = some bus)
    (hLocked : s.locked = true) (answer : request.Answer) :
    custody.step ⟨request, answer⟩ s = some { s with locked := false } := by
  simp only [custody, step, hRole]
  rw [if_pos ⟨hBus, hLocked⟩]

theorem step_transfers (hRole : request.role = .transfers bus) (hBus : s.bus? = some bus)
    (hLocked : s.locked = true) (answer : request.Answer) :
    custody.step ⟨request, answer⟩ s = some s := by
  simp only [custody, step, hRole]
  rw [if_pos ⟨hBus, hLocked⟩]

theorem step_uses (hRole : request.role = .uses resource) (hHolds : s.Holds resource)
    (answer : request.Answer) : custody.step ⟨request, answer⟩ s = some s := by
  simp only [custody, step, hRole]
  rw [if_pos hHolds]

theorem step_free (hRole : request.role = .free) (answer : request.Answer) :
    custody.step ⟨request, answer⟩ s = some s := by
  simp only [custody, step, hRole]

/-- Everything that a step can be. -/
inductive Step (exchange : Exchange) (s : Custody) : Custody → Prop
  | claims {holding : Holding} (hRole : exchange.request.role = .claims holding)
    (hSeparate : holding.Separate) (hAllows : s.Allows holding.resource)
    (hFree : s.locked = false) :
    Step exchange s (if exchange.granted then s.add holding.resource else s)
  | releases {resource : Resource} (hRole : exchange.request.role = .releases resource)
    (hHolds : s.Holds resource) (hFree : s.locked = false) : Step exchange s (s.remove resource)
  | locks {bus : Bus} (hRole : exchange.request.role = .locks bus) (hBus : s.bus? = some bus)
    (hFree : s.locked = false) : Step exchange s { s with locked := exchange.granted }
  | unlocks {bus : Bus} (hRole : exchange.request.role = .unlocks bus) (hBus : s.bus? = some bus)
    (hLocked : s.locked = true) : Step exchange s { s with locked := false }
  | transfers {bus : Bus} (hRole : exchange.request.role = .transfers bus)
    (hBus : s.bus? = some bus) (hLocked : s.locked = true) : Step exchange s s
  | uses {resource : Resource} (hRole : exchange.request.role = .uses resource)
    (hHolds : s.Holds resource) : Step exchange s s
  | free (hRole : exchange.request.role = .free) : Step exchange s s

theorem step_cases {exchange : Exchange} {s' : Custody} (h : custody.step exchange s = some s') :
    Step exchange s s' := by
  simp only [custody, step] at h
  cases hRole : exchange.request.role with
  | claims holding =>
    obtain ⟨⟨hSeparate, hAllows, hFree⟩, rfl⟩ := by simpa [hRole] using h
    exact .claims hRole hSeparate hAllows hFree
  | releases resource =>
    obtain ⟨⟨hHolds, hFree⟩, rfl⟩ := by simpa [hRole] using h
    exact .releases hRole hHolds hFree
  | locks bus =>
    obtain ⟨⟨hBus, hFree⟩, rfl⟩ := by simpa [hRole] using h
    exact .locks hRole hBus hFree
  | unlocks bus =>
    obtain ⟨⟨hBus, hLocked⟩, rfl⟩ := by simpa [hRole] using h
    exact .unlocks hRole hBus hLocked
  | transfers bus =>
    obtain ⟨⟨hBus, hLocked⟩, rfl⟩ := by simpa [hRole] using h
    exact .transfers hRole hBus hLocked
  | uses resource =>
    obtain ⟨hHolds, rfl⟩ := by simpa [hRole] using h
    exact .uses hRole hHolds
  | free =>
    obtain rfl := by simpa [hRole] using h
    exact .free hRole

end Custody

namespace Act

variable {ω β τ ε α γ : Type} {P : ω → Prop} {s : Custody} {request : Request} {bus : Bus}

/-! ## Claims -/

namespace Obeys

variable {x : ω} {post : Except ε α → ω → Custody → Prop} {resource : Resource}

theorem claim_bind {next : request.Answer → Act ω β τ ε α} {holding : Holding}
    (hRole : request.role = .claims holding) (hSeparate : holding.Separate)
    (hAllows : s.Allows holding.resource) (hFree : s.locked = false)
    (hNext : ∀ answer, Obeys custody (next answer) x
      (if Exchange.granted ⟨request, answer⟩ then s.add holding.resource else s) post) :
    Obeys custody (Act.ask request >>= next) x s post :=
  .bind (.ask fun answer =>
    ⟨_, Custody.step_claims hRole hSeparate hAllows hFree answer, hNext answer⟩)

theorem tell_free {post : Except ε Unit → ω → Custody → Prop} (hRole : request.role = .free)
    (h : post (.ok ()) x s) : Obeys custody (Act.tell request : Act ω β τ ε Unit) x s post :=
  .tell fun answer => ⟨s, Custody.step_free hRole answer, h⟩

theorem release {post : Except ε Unit → ω → Custody → Prop}
    (hRole : request.role = .releases resource) (hHolds : s.Holds resource)
    (hFree : s.locked = false) (h : post (.ok ()) x (s.remove resource)) :
    Obeys custody (Act.tell request : Act ω β τ ε Unit) x s post :=
  .tell fun answer => ⟨_, Custody.step_releases hRole hHolds hFree answer, h⟩

theorem release_bind {next : Unit → Act ω β τ ε α} (hRole : request.role = .releases resource)
    (hHolds : s.Holds resource) (hFree : s.locked = false)
    (hNext : Obeys custody (next ()) x (s.remove resource) post) :
    Obeys custody (Act.tell request >>= next) x s post :=
  .bind (.release hRole hHolds hFree hNext)

/-! ## Critical sections -/

/-- Where the lock is refused nothing is held that was not held before. -/
theorem lock_bind {next : request.Answer → Act ω β τ ε α} (hRole : request.role = .locks bus)
    (hBus : s.bus? = some bus) (hFree : s.locked = false)
    (hNext : ∀ answer, Obeys custody (next answer) x
      (if Exchange.granted ⟨request, answer⟩ then { s with locked := true } else s) post) :
    Obeys custody (Act.ask request >>= next) x s post := by
  refine .bind (.ask fun answer => ⟨_, Custody.step_locks hRole hBus hFree answer, ?_⟩)
  have hAnswer := hNext answer
  cases hGranted : Exchange.granted ⟨request, answer⟩ with
  | true =>
    rw [hGranted] at hAnswer
    exact hAnswer
  | false =>
    rw [hGranted] at hAnswer
    rw [← hFree]
    exact hAnswer

theorem unlock_bind {next : Unit → Act ω β τ ε α} (hRole : request.role = .unlocks bus)
    (hBus : s.bus? = some bus) (hFree : s.locked = false)
    (hNext : Obeys custody (next ()) x s post) :
    Obeys custody (Act.tell request >>= next) x { s with locked := true } post := by
  have hStep : ∀ answer, custody.step ⟨request, answer⟩ { s with locked := true } = some s := by
    intro answer
    rw [Custody.step_unlocks (s := { s with locked := true }) hRole hBus rfl answer, ← hFree]
  exact .bind (.tell fun answer => ⟨s, hStep answer, hNext⟩)

end Obeys

/-- Begun under the lock, the program gives the lock back, however it goes. -/
def Unlocks (P : ω → Prop) (s : Custody) (program : Act ω β τ ε α) : Prop :=
  ∀ x, P x → Obeys custody program x { s with locked := true } fun _ x' s' => P x' ∧ s' = s

namespace Unlocks

theorem bind {first : Act ω β τ ε γ} {next : γ → Act ω β τ ε α}
    (h : Succeeds custody P { s with locked := true } first) (hNext : ∀ c, Unlocks P s (next c)) :
    Unlocks P s (first >>= next) :=
  fun _ hOwn => h.obeys_bind hOwn hNext

theorem tell_bind {next : Unit → Act ω β τ ε α} (hRole : request.role = .unlocks bus)
    (hBus : s.bus? = some bus) (hFree : s.locked = false) (hNext : Stays custody P s (next ())) :
    Unlocks P s (Act.tell request >>= next) :=
  fun x hOwn => .unlock_bind hRole hBus hFree (hNext x hOwn)

end Unlocks

theorem Stays.lock_bind {next : request.Answer → Act ω β τ ε α}
    (hRole : request.role = .locks bus) (hBus : s.bus? = some bus) (hFree : s.locked = false)
    (hNext : ∀ answer, if Exchange.granted ⟨request, answer⟩ then Unlocks P s (next answer)
      else Stays custody P s (next answer)) :
    Stays custody P s (Act.ask request >>= next) := by
  refine fun x hOwn => .lock_bind hRole hBus hFree fun answer => ?_
  have hAnswer := hNext answer
  split
  · next hGranted =>
    rw [if_pos hGranted] at hAnswer
    exact hAnswer x hOwn
  · next hRefused =>
    rw [if_neg hRefused] at hAnswer
    exact hAnswer x hOwn

end Act

end BusBench
