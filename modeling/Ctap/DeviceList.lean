/-!
# Lists of reachable devices

The devices that are reachable, in the order in which they were found. A request goes to the first
of them.
-/

namespace Ctap

/-- Reachable devices, in the order in which they were found. -/
structure DeviceList (δ : Type) where
  devices : List δ
deriving DecidableEq, Repr, Inhabited

namespace DeviceList

variable {δ : Type}

/-- The list of the given devices. -/
def ofList (devices : List δ) : DeviceList δ := ⟨devices⟩

/-- Adds a device after the others. -/
def add (l : DeviceList δ) (device : δ) : DeviceList δ := ⟨l.devices ++ [device]⟩

/-- Forgets all devices. -/
def clear (_ : DeviceList δ) : DeviceList δ := ⟨[]⟩

/-- The number of devices. -/
def size (l : DeviceList δ) : Nat := l.devices.length

/-- Whether there are no devices. -/
def isEmpty (l : DeviceList δ) : Bool := l.devices.isEmpty

/-- The device to which a request goes. -/
def first? (l : DeviceList δ) : Option δ := l.devices.head?

@[simp] theorem size_add (l : DeviceList δ) (device : δ) : (l.add device).size = l.size + 1 := by
  simp [add, size]

@[simp] theorem size_clear (l : DeviceList δ) : l.clear.size = 0 := rfl

theorem first?_add (l : DeviceList δ) (device : δ) :
    (l.add device).first? = l.first?.or (some device) := by
  cases l with
  | mk devices => cases devices <;> rfl

end DeviceList

end Ctap
