import Ctap.Rehearsal.Run

/-!
# Scripted devices

A scripted device takes an act from its script for every request it is handed, and repeats its usual
act when the script is used up. It serves any number of callers at the same time.

## Main definitions

* `Act`: what the device does with a request.
* `Puppet.enter`, `Puppet.advance`, `Puppet.drop`: the calls.
-/

namespace Ctap.Rehearsal

/-- How an act ends. -/
inductive Conduct where
  | fails (cause : Error)
  | hangs
  /-- With a response, which may go on with the request. -/
  | replies (body : Bytes) (echo : Bool)
deriving DecidableEq, Repr

/-- What a scripted device does with a request. -/
structure Act where
  /-- How long it waits. -/
  delay : Time
  conduct : Conduct
deriving DecidableEq, Repr

/-- The result of an act for a request, if there ever is one. -/
def Act.result (a : Act) (request : Bytes) : Option (Except Error Bytes) :=
  match a.conduct with
  | .fails cause => some (.error cause)
  | .hangs => none
  | .replies body echo => some (.ok (if echo then body ++ request else body))

/-- A call of a scripted device. -/
structure PuppetCall where
  caller : Caller
  /-- When its result is there. -/
  due : Time
  result : Option (Except Error Bytes)

/-- A scripted device. -/
structure Puppet where
  script : List Act
  /-- The act when the script is used up. -/
  usual : Act
  calls : List PuppetCall

namespace Puppet

/-- A caller hands over a request. -/
def enter (p : Puppet) (now : Time) (caller : Caller) (request : Bytes) : Puppet :=
  let act := p.script.headD p.usual
  { p with
    script := p.script.tail
    calls := p.calls ++ [⟨caller, now + act.delay, act.result request⟩] }

/-- A caller is dropped, or has its result. -/
def drop (p : Puppet) (caller : Caller) : Puppet :=
  { p with calls := p.calls.filter (·.caller != caller) }

/-- A caller goes on at an instant. -/
def advance (p : Puppet) (now : Time) (caller : Caller) :
    Progress (Except Error Bytes) × Puppet :=
  match p.calls.find? (·.caller == caller) with
  | none => (.waiting none, p)
  | some call =>
    match call.result with
    | none => (.waiting none, p)
    | some result =>
      if call.due ≤ now then (.finished result, p.drop caller) else (.waiting (some call.due), p)

end Puppet

end Ctap.Rehearsal
