import Ctap.Proofs.Card.Applet
import Mathlib.Data.List.Basic

/-!
# The octets of commands

A payload is sent in a chain of short commands, or in one extended command. A chain is cut into full
pieces and a last one that is not empty; a command of a chain says in one octet how many octets of
data follow, and the last one has an octet behind them for the length of the response. An extended
command has two octets for each of the two lengths. A card that reads the lengths gets the same
payload from both.

## Main definitions

* `IsShort`: the layout of a short command.

## Main results

* `Bytes.chunks_eq_concat`: the pieces of a string are full, but for the last one.
* `chain_concat`: the commands for some pieces.
* `commands_carry_payload`: what the commands for a payload look like, and what a card reads.
-/

namespace Ctap

/-- **The pieces of a string** are full, but for the last one, which is not empty. -/
theorem Bytes.chunks_eq_concat {size : Nat} (h : 0 < size) {b : Bytes} (hb : b ≠ []) :
    ∃ front last, chunks size b = front ++ [last] ∧ (∀ piece ∈ front, piece.length = size) ∧
      last ≠ [] ∧ last.length ≤ size := by
  induction hn : b.length using Nat.strongRecOn generalizing b with
  | ind n ih =>
    subst hn
    have hpos : 0 < b.length := List.length_pos_iff.2 hb
    rw [chunks_eq_cons h hb]
    by_cases hrest : b.drop size = []
    · have hlength : b.length ≤ size := List.drop_eq_nil_iff.1 hrest
      refine ⟨[], b, ?_, by simp, hb, hlength⟩
      rw [hrest, chunks_nil h, List.take_of_length_le hlength, List.nil_append]
    · have hlong : size < b.length := Nat.lt_of_not_le fun hle => hrest (List.drop_eq_nil_iff.2 hle)
      obtain ⟨front, last, hcut, hfull, hlast⟩ :=
        ih (b.drop size).length (by rw [List.length_drop]; omega) hrest rfl
      refine ⟨b.take size :: front, last, by rw [hcut, List.cons_append], fun piece hpiece => ?_,
        hlast⟩
      rcases List.mem_cons.1 hpiece with rfl | hpiece
      · rw [List.length_take, Nat.min_eq_left (Nat.le_of_lt hlong)]
      · exact hfull piece hpiece

namespace Card

/-- Whether a command has the class and some data, whose length stands in one octet in front of it,
and what is behind the data. -/
def IsShort (cla : UInt8) (data behind command : Bytes) : Prop :=
  ∃ length : UInt8, length.toNat = data.length ∧ 1 ≤ data.length ∧ data.length ≤ 254 ∧
    command = [cla, 0x10, 0x00, 0x00, length] ++ data ++ behind

theorem isShort_of_piece (cla : UInt8) {piece : Bytes} (hne : piece ≠ [])
    (hlength : piece.length ≤ chainChunkSize) (behind : Bytes) :
    IsShort cla piece behind
      ([cla, 0x10, 0x00, 0x00, UInt8.ofNat piece.length] ++ piece ++ behind) := by
  have hless : piece.length ≤ 254 := hlength
  refine ⟨UInt8.ofNat piece.length, ?_, List.length_pos_iff.2 hne, hless, rfl⟩
  rw [UInt8.toNat_ofNat', Nat.mod_eq_of_lt (by omega)]

/-- **The commands for some pieces**: one for each. -/
theorem chain_concat (front : List Bytes) (last : Bytes) : chain (front ++ [last]) =
    front.map (fun piece => [0x90, 0x10, 0x00, 0x00, UInt8.ofNat piece.length] ++ piece) ++
      [[0x80, 0x10, 0x00, 0x00, UInt8.ofNat last.length] ++ last ++ [0x00]] := by
  induction front with
  | nil => rfl
  | cons piece front ih =>
    have hmore : chain (piece :: (front ++ [last])) =
        ([0x90, 0x10, 0x00, 0x00, UInt8.ofNat piece.length] ++ piece) ::
          chain (front ++ [last]) := by
      cases front <;> rfl
    rw [List.cons_append, hmore, ih]
    rfl

theorem Carries.flatMap_commandData {data : Bytes} {commands : List Bytes}
    (h : Carries data commands) : commands.flatMap commandData = data := by
  induction h with
  | last => simp
  | more _ _ ih => rw [List.flatMap_cons, ih]

/-- **The commands for a payload carry it.** A chain of short commands ends in a command of class
`80`, which has an octet behind its data for the length of the response; the commands in front have
class `90`, and are full. An empty payload has one command without data. Put together, the data that
a card reads is the payload. One extended command does the same if and only if the payload has no
more than 65535 octets, and has two octets behind the data. -/
theorem commands_carry_payload (payload : Bytes) :
    (∃ front last, chainedCommands payload = front ++ [last] ∧
      (∀ command ∈ front, ∃ data, data.length = 254 ∧ IsShort 0x90 data [] command) ∧
      (if payload = [] then front = [] ∧ last = [0x80, 0x10, 0x00, 0x00, 0x00]
        else ∃ data, IsShort 0x80 data [0x00] last) ∧
      (front ++ [last]).flatMap commandData = payload) ∧
    (payload.length ≤ 65535 ∧ (∃ hi lo, (Bytes.toUInt16 hi lo).toNat = payload.length ∧
        extendedCommand payload =
          .ok [[0x80, 0x10, 0x00, 0x00, 0x00, hi, lo] ++ payload ++ [0x00, 0x00]] ∧
        commandData ([0x80, 0x10, 0x00, 0x00, 0x00, hi, lo] ++ payload ++ [0x00, 0x00]) = payload) ∨
      65535 < payload.length ∧
        extendedCommand payload = .error (.messageTooLarge payload.length)) := by
  constructor
  · have hdata := (carries_chainedCommands payload).flatMap_commandData
    by_cases hempty : payload = []
    · subst hempty
      exact ⟨[], [0x80, 0x10, 0x00, 0x00, 0x00], rfl, by simp, by simp, hdata⟩
    · obtain ⟨front, last, hcut, hfull, hne, hlast⟩ :=
        Bytes.chunks_eq_concat (show 0 < chainChunkSize by decide) hempty
      have hcommands : chainedCommands payload = _ :=
        (if_neg hempty).trans ((congrArg chain hcut).trans (chain_concat front last))
      refine ⟨_, _, hcommands, fun command hcommand => ?_, ?_, by rw [← hcommands]; exact hdata⟩
      · obtain ⟨piece, hpiece, rfl⟩ := List.mem_map.1 hcommand
        have hlength : piece.length = 254 := hfull piece hpiece
        have hshort := isShort_of_piece 0x90 (List.ne_nil_of_length_pos (by omega))
          (Nat.le_of_eq hlength) []
        rw [List.append_nil] at hshort
        exact ⟨piece, hlength, hshort⟩
      · rw [if_neg hempty]
        exact ⟨last, isShort_of_piece 0x80 hne hlast [0x00]⟩
  · by_cases hlong : maxExtendedPayload < payload.length
    · exact .inr ⟨hlong, if_pos hlong⟩
    · have hlength : payload.length ≤ 65535 := Nat.le_of_not_lt hlong
      refine .inl ⟨hlength, _, _, ?_, if_neg hlong, ?_⟩
      · rw [Bytes.toUInt16_ofUInt16, UInt16.toNat_ofNat', Nat.mod_eq_of_lt (by omega)]
      · obtain ⟨command, hcommand, hcarries⟩ := carries_extendedCommand (if_neg hlong)
        cases hcommand
        have hdata := hcarries.flatMap_commandData
        rwa [List.flatMap_cons, List.flatMap_nil, List.append_nil] at hdata

/-- A payload of two full pieces. -/
example : (chainedCommands (Bytes.zeros 508)).map (·.take 5) =
    [[0x90, 0x10, 0x00, 0x00, 254], [0x80, 0x10, 0x00, 0x00, 254]] := by decide +kernel

end Card

end Ctap
