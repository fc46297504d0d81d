import Ctap.Card.Authenticator
import Ctap.Proofs.Session

/-!
# The other end of a card reader

A card keeps the data of a chain until its last command comes, and then executes all of it. It drops
what it has of a chain when a command is executed, when the applet is selected, and when the card is
reset. A reset ends the selection too, and commands come to nothing until the applet is selected
again. Every command is answered, and what the answers say is open: a card may take a command and
answer it with a failure.

## Main definitions

* `commandData`: the data field of a command.
* `Applet`, `Applet.hear`, `Applet.Act`: what is at the other end, and what it does.
* `Carries`: commands that bring some data to be executed.

## Main results

* `carries_extendedCommand`, `carries_chainedCommands`: the commands of a request bring its payload.
* `Applet.hear_chaining`, `Applet.hear_last`: what the card has of a chain, and what it executes.
-/

namespace Ctap.Card

/-! ### Commands -/

/-- The data field of a command, whose length stands in one octet, or in two behind a zero. -/
def commandData : Bytes → Bytes
  | _ :: _ :: _ :: _ :: 0 :: hi :: lo :: rest => rest.take (Bytes.toUInt16 hi lo).toNat
  | _ :: _ :: _ :: _ :: length :: rest => rest.take length.toNat
  | _ => []

/-- Whether a command goes on with a chain that is not complete with it. -/
def isChained (command : Bytes) : Bool := command.head? == some 0x90

/-- Whether a command is the last of its chain. -/
def isLast (command : Bytes) : Bool := command.head? == some 0x80

/-- Whether a command selects an applet. -/
def isSelect (command : Bytes) : Bool := command.take 2 == [0x00, 0xA4]

/-- The commands bring the data, and only with the last of them it is complete. -/
inductive Carries : Bytes → List Bytes → Prop where
  | last {command : Bytes} : isLast command = true → Carries (commandData command) [command]
  | more {command data : Bytes} {rest : List Bytes} : isChained command = true →
    Carries data rest → Carries (commandData command ++ data) (command :: rest)

theorem Carries.ne_nil {data : Bytes} {commands : List Bytes} (h : Carries data commands) :
    commands ≠ [] := by
  cases h <;> exact List.cons_ne_nil _ _

private theorem commandData_short {piece : Bytes} (cla ins p1 p2 : UInt8) (hne : piece ≠ [])
    (hlength : piece.length ≤ chainChunkSize) (rest : Bytes) :
    commandData ([cla, ins, p1, p2, UInt8.ofNat piece.length] ++ piece ++ rest) = piece := by
  have hless : piece.length < 256 := Nat.lt_of_le_of_lt hlength (by decide)
  have htoNat : (UInt8.ofNat piece.length).toNat = piece.length := by
    rw [UInt8.toNat_ofNat', Nat.mod_eq_of_lt hless]
  have hzero : UInt8.ofNat piece.length ≠ 0 := by
    intro h
    rw [h] at htoNat
    exact hne (List.length_eq_zero_iff.1 htoNat.symm)
  rw [List.append_assoc]
  simp only [List.cons_append, List.nil_append]
  rw [commandData]
  · rw [htoNat, List.take_left]
  · intro hi lo behind h
    exact absurd h hzero

/-- A chain brings what its pieces are put together. -/
theorem carries_chain {pieces : List Bytes} (hpieces : pieces ≠ [])
    (h : ∀ piece ∈ pieces, piece ≠ [] ∧ piece.length ≤ chainChunkSize) :
    Carries pieces.flatten (chain pieces) := by
  induction pieces with
  | nil => exact absurd rfl hpieces
  | cons piece rest ih =>
    obtain ⟨hne, hlength⟩ := h piece (List.mem_cons_self ..)
    rcases rest with _ | ⟨next, rest⟩
    · have hdata := commandData_short 0x80 0x10 0x00 0x00 hne hlength [0x00]
      have hlast : isLast ([0x80, 0x10, 0x00, 0x00, UInt8.ofNat piece.length] ++ piece ++ [0x00]) =
        true := rfl
      have hcarries := Carries.last hlast
      rw [hdata] at hcarries
      simpa [chain] using hcarries
    · have hdata := commandData_short 0x90 0x10 0x00 0x00 hne hlength []
      have hmore := ih (List.cons_ne_nil _ _) fun p hp => h p (List.mem_cons_of_mem _ hp)
      have hchained : isChained
        ([0x90, 0x10, 0x00, 0x00, UInt8.ofNat piece.length] ++ piece ++ []) = true := rfl
      have hcarries := Carries.more hchained hmore
      rw [hdata, List.append_nil] at hcarries
      exact hcarries

/-- **A chain brings the payload**, of whatever length. -/
theorem carries_chainedCommands (payload : Bytes) : Carries payload (chainedCommands payload) := by
  rw [chainedCommands]
  split_ifs with hempty
  · rw [hempty]
    have hlast : isLast [0x80, 0x10, 0x00, 0x00, 0x00] = true := rfl
    exact .last hlast
  · have hsize : 0 < chainChunkSize := by decide
    have hcarries : Carries (Bytes.chunks chainChunkSize payload).flatten
        (chain (Bytes.chunks chainChunkSize payload)) := by
      refine carries_chain ?_ fun piece hpiece => ⟨Bytes.ne_nil_of_mem_chunks hsize hpiece, ?_⟩
      · rw [Bytes.chunks_eq_cons hsize hempty]
        exact List.cons_ne_nil _ _
      · obtain ⟨i, hi⟩ := List.mem_iff_getElem?.1 hpiece
        rw [Bytes.chunks, Bytes.getElem?_pieces] at hi
        split_ifs at hi
        cases hi
        exact List.length_take_le ..
    rwa [Bytes.flatten_chunks hsize] at hcarries

/-- **An extended command brings the payload**, if it has room for it. -/
theorem carries_extendedCommand {payload : Bytes} {commands : List Bytes}
    (h : extendedCommand payload = .ok commands) :
    ∃ command, commands = [command] ∧ Carries payload commands := by
  rw [extendedCommand] at h
  split_ifs at h with hlong
  cases h
  refine ⟨_, rfl, ?_⟩
  have hless : payload.length < 65536 := by
    rw [maxExtendedPayload] at hlong
    omega
  have hlength : (Bytes.toUInt16 (UInt16.ofNat payload.length >>> 8).toUInt8
      (UInt16.ofNat payload.length).toUInt8).toNat = payload.length := by
    rw [Bytes.toUInt16_ofUInt16, UInt16.toNat_ofNat', Nat.mod_eq_of_lt hless]
  have hdata : commandData ([0x80, 0x10, 0x00, 0x00, 0x00] ++
      Bytes.ofUInt16 (UInt16.ofNat payload.length) ++ payload ++ [0x00, 0x00]) = payload := by
    simp only [Bytes.ofUInt16, List.cons_append, List.nil_append]
    rw [commandData, hlength, List.take_left]
  have hlast : isLast ([0x80, 0x10, 0x00, 0x00, 0x00] ++
      Bytes.ofUInt16 (UInt16.ofNat payload.length) ++ payload ++ [0x00, 0x00]) = true := rfl
  have hcarries := Carries.last hlast
  rwa [hdata] at hcarries

/-! ### The card -/

/-- What is at the other end of a card reader. -/
structure Applet where
  selected : Bool
  chain : Bytes
  executed : List Bytes
  /-- The answer to the last command, until it is taken. -/
  response : Option Bytes

namespace Applet

/-- What a card does on its own. -/
inductive Act where
  | reset

/-- A card that was just inserted. -/
def fresh : Applet := ⟨false, [], [], none⟩

/-- What a command changes on the card. -/
def process (a : Applet) (command : Bytes) : Applet :=
  if isSelect command then { a with selected := true, chain := [] }
  else if !a.selected then a
  else if isChained command then { a with chain := a.chain ++ commandData command }
  else if isLast command then
    { a with chain := [], executed := a.executed ++ [a.chain ++ commandData command] }
  else a

/-- The state after a command came, with the answer that the card gives. -/
def hear (a : Applet) (response command : Bytes) : Applet :=
  { a.process command with response := some response }

/-- The answer that is on its way, and the state after it was taken. -/
def next? (a : Applet) : Option (Bytes × Applet) :=
  a.response.map fun response => (response, { a with response := none })

/-- The state after an act. -/
def act (a : Applet) : Act → Applet
  | .reset => { a with selected := false, chain := [] }

instance : Peer Applet Bytes Act where
  hear? a response command := some (a.hear response command)
  next? := next?
  act? a e := some (a.act e)
  taken a := a.executed.length

variable {a : Applet} {command : Bytes}

theorem next?_eq_some {response : Bytes} {peer : Applet} :
    a.next? = some (response, peer) ↔
      a.response = some response ∧ peer = { a with response := none } := by
  rw [next?, Option.map_eq_some_iff]
  constructor
  · rintro ⟨_, hresponse, h⟩
    cases h
    exact ⟨hresponse, rfl⟩
  · rintro ⟨hresponse, rfl⟩
    exact ⟨response, hresponse, rfl⟩

theorem hear_select (h : isSelect command = true) (response : Bytes) :
    a.hear response command = ⟨true, [], a.executed, some response⟩ := by
  rw [hear, process, if_pos h]

theorem hear_unselected (hselected : a.selected = false) (h : isSelect command = false)
    (response : Bytes) : a.hear response command = { a with response := some response } := by
  simp [hear, process, h, hselected]

private theorem isSelect_of_head? {first : UInt8} (h : command.head? = some first)
    (hfirst : first ≠ 0x00) : isSelect command = false := by
  rcases command with _ | ⟨octet, rest⟩
  · rfl
  · cases h
    simp [isSelect, hfirst]

theorem isSelect_of_isChained (h : isChained command = true) : isSelect command = false :=
  isSelect_of_head? (eq_of_beq h) (by decide)

theorem isSelect_of_isLast (h : isLast command = true) : isSelect command = false :=
  isSelect_of_head? (eq_of_beq h) (by decide)

/-- **A command that goes on with a chain adds its data**, and nothing is executed. -/
theorem hear_chaining (hselected : a.selected = true) (h : isChained command = true)
    (response : Bytes) : a.hear response command =
      ⟨true, a.chain ++ commandData command, a.executed, some response⟩ := by
  simp [hear, process, isSelect_of_isChained h, hselected, h]

/-- **The last command of a chain executes all of it**, and nothing is left of the chain. -/
theorem hear_last (hselected : a.selected = true) (h : isLast command = true)
    (response : Bytes) : a.hear response command =
      ⟨true, [], a.executed ++ [a.chain ++ commandData command], some response⟩ := by
  have hchained : isChained command = false := by
    rw [isChained, eq_of_beq h]
    rfl
  simp [hear, process, isSelect_of_isLast h, hselected, hchained, h]

theorem hear_getResponse (a : Applet) (response : Bytes) :
    a.hear response getResponse = { a with response := some response } := by
  have hselect : isSelect getResponse = false := by decide
  have hchained : isChained getResponse = false := by decide
  have hlast : isLast getResponse = false := by decide
  simp [hear, process, hselect, hchained, hlast]

end Applet

end Ctap.Card
