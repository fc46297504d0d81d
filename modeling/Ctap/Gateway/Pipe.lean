import Ctap.Hid.Command
import Ctap.Link.Error

/-!
# Report pipes

A pipe carries reports between a gateway and its host, in both directions. Each direction holds a
bounded number of reports. An end that is dropped neither sends nor receives any more; what it sent
before still arrives, and what it has not taken is lost.

## Main definitions

* `Lane`: one direction.
* `Pipe`: both directions, with an end for the gateway and an end for the host.
* `Pipe.send`, `Pipe.receive`, `Pipe.drop`: what an end can do without waiting.
-/

namespace Ctap.Gateway

/-- How many reports each direction of a pipe holds. -/
def pipeDepth : Nat := 64

/-- The outcome of an attempt that does not wait. -/
inductive Attempt (α : Type) where
  | done (result : α)
  | blocked
  | failed (cause : Link.Error)
deriving DecidableEq, Repr

/-- One direction of a pipe. -/
structure Lane where
  reports : List Bytes
  hasSender : Bool
  hasReceiver : Bool
deriving DecidableEq, Repr, Inhabited

namespace Lane

/-- A direction on which nothing was sent. -/
def empty : Lane := ⟨[], true, true⟩

/-- Whether a report can be put in. -/
def hasRoom (l : Lane) : Bool := l.reports.length < pipeDepth

/-- Puts a report in. -/
def send (l : Lane) (report : Bytes) : Attempt Unit × Lane :=
  if !l.hasReceiver then (.failed .disconnected, l)
  else if l.hasRoom then (.done (), { l with reports := l.reports ++ [report] })
  else (.blocked, l)

/-- Takes the first report. -/
def receive (l : Lane) : Attempt Bytes × Lane :=
  match l.reports with
  | report :: rest => (.done report, { l with reports := rest })
  | [] => (if l.hasSender then .blocked else .failed .disconnected, l)

/-- The receiving end goes. -/
def dropReceiver (l : Lane) : Lane := { l with hasReceiver := false, reports := [] }

/-- The sending end goes. -/
def dropSender (l : Lane) : Lane := { l with hasSender := false }

/-- A report can be put in while the receiving end is there and there is room. -/
theorem send_eq_done {l l' : Lane} {report : Bytes} : l.send report = (.done (), l') ↔
    l.hasReceiver = true ∧ l.reports.length < pipeDepth ∧
      l' = { l with reports := l.reports ++ [report] } := by
  rw [send]
  cases hreceiver : l.hasReceiver with
  | false => simp
  | true => by_cases hroom : l.reports.length < pipeDepth <;> simp [hasRoom, hroom, eq_comm]

theorem receive_eq_done {l l' : Lane} {report : Bytes} : l.receive = (.done report, l') ↔
    ∃ rest, l.reports = report :: rest ∧ l' = { l with reports := rest } := by
  rw [receive]
  cases l.reports with
  | nil => cases l.hasSender <;> simp
  | cons first rest => simp [eq_comm, and_assoc]

/-- A report cannot be put in any more once the receiving end is gone. -/
theorem send_eq_failed {l l' : Lane} {report : Bytes} {cause : Link.Error} :
    l.send report = (.failed cause, l') ↔
      l.hasReceiver = false ∧ cause = .disconnected ∧ l' = l := by
  rw [send]
  cases hreceiver : l.hasReceiver with
  | false => simp [eq_comm]
  | true => by_cases hroom : l.reports.length < pipeDepth <;> simp [hasRoom, hroom]

/-- No report comes any more once the sending end is gone and everything was taken. -/
theorem receive_eq_failed {l l' : Lane} {cause : Link.Error} : l.receive = (.failed cause, l') ↔
    l.reports = [] ∧ l.hasSender = false ∧ cause = .disconnected ∧ l' = l := by
  rw [receive]
  cases l.reports with
  | nil => cases l.hasSender <;> simp [eq_comm]
  | cons first rest => simp

end Lane

/-- The ends of a pipe. -/
inductive End where
  | gateway
  | host
deriving DecidableEq, Repr

/-- A pipe between a gateway and its host. -/
structure Pipe where
  toGateway : Lane
  toHost : Lane
deriving DecidableEq, Repr, Inhabited

namespace Pipe

/-- A pipe on which nothing was sent. -/
def fresh : Pipe := ⟨.empty, .empty⟩

/-- Sends a report from an end. -/
def send (p : Pipe) (e : End) (report : Bytes) : Attempt Unit × Pipe :=
  match e with
  | .gateway => let r := p.toHost.send report; (r.1, { p with toHost := r.2 })
  | .host => let r := p.toGateway.send report; (r.1, { p with toGateway := r.2 })

/-- Sends octets from an end; they must make up a report. -/
def sendOctets (p : Pipe) (e : End) (octets : Bytes) : Attempt Unit × Pipe :=
  if octets.length = Hid.reportSize then p.send e octets
  else (.failed (.invalidPacket "report must be 64 bytes"), p)

/-- Receives a report at an end. -/
def receive (p : Pipe) (e : End) : Attempt Bytes × Pipe :=
  match e with
  | .gateway => let r := p.toGateway.receive; (r.1, { p with toGateway := r.2 })
  | .host => let r := p.toHost.receive; (r.1, { p with toHost := r.2 })

/-- Drops an end. -/
def drop (p : Pipe) : End → Pipe
  | .gateway => ⟨p.toGateway.dropReceiver, p.toHost.dropSender⟩
  | .host => ⟨p.toGateway.dropSender, p.toHost.dropReceiver⟩

variable {p p' : Pipe} {report : Bytes}

theorem send_gateway_eq_done : p.send .gateway report = (.done (), p') ↔
    p.toHost.hasReceiver = true ∧ p.toHost.reports.length < pipeDepth ∧
      p' = { p with toHost.reports := p.toHost.reports ++ [report] } := by
  rcases h : p.toHost.send report with ⟨attempt, lane⟩
  simp only [send, h, Prod.mk.injEq]
  constructor
  · rintro ⟨rfl, rfl⟩
    obtain ⟨hthere, hroom, rfl⟩ := Lane.send_eq_done.1 h
    exact ⟨hthere, hroom, rfl⟩
  · rintro ⟨hthere, hroom, rfl⟩
    cases h.symm.trans (Lane.send_eq_done.2 ⟨hthere, hroom, rfl⟩)
    exact ⟨rfl, rfl⟩

theorem send_host_eq_done : p.send .host report = (.done (), p') ↔
    p.toGateway.hasReceiver = true ∧ p.toGateway.reports.length < pipeDepth ∧
      p' = { p with toGateway.reports := p.toGateway.reports ++ [report] } := by
  rcases h : p.toGateway.send report with ⟨attempt, lane⟩
  simp only [send, h, Prod.mk.injEq]
  constructor
  · rintro ⟨rfl, rfl⟩
    obtain ⟨hthere, hroom, rfl⟩ := Lane.send_eq_done.1 h
    exact ⟨hthere, hroom, rfl⟩
  · rintro ⟨hthere, hroom, rfl⟩
    cases h.symm.trans (Lane.send_eq_done.2 ⟨hthere, hroom, rfl⟩)
    exact ⟨rfl, rfl⟩

theorem send_gateway_eq_failed {cause : Link.Error} :
    p.send .gateway report = (.failed cause, p') ↔
      p.toHost.hasReceiver = false ∧ cause = .disconnected ∧ p' = p := by
  rcases h : p.toHost.send report with ⟨attempt, lane⟩
  simp only [send, h, Prod.mk.injEq]
  constructor
  · rintro ⟨rfl, rfl⟩
    obtain ⟨hgone, rfl, rfl⟩ := Lane.send_eq_failed.1 h
    exact ⟨hgone, rfl, rfl⟩
  · rintro ⟨hgone, rfl, rfl⟩
    cases h.symm.trans (Lane.send_eq_failed.2 ⟨hgone, rfl, rfl⟩)
    exact ⟨rfl, rfl⟩

theorem receive_gateway_eq_failed {cause : Link.Error} :
    p.receive .gateway = (.failed cause, p') ↔
      p.toGateway.reports = [] ∧ p.toGateway.hasSender = false ∧ cause = .disconnected ∧
        p' = p := by
  rcases h : p.toGateway.receive with ⟨attempt, lane⟩
  simp only [receive, h, Prod.mk.injEq]
  constructor
  · rintro ⟨rfl, rfl⟩
    obtain ⟨hnone, hgone, rfl, rfl⟩ := Lane.receive_eq_failed.1 h
    exact ⟨hnone, hgone, rfl, rfl⟩
  · rintro ⟨hnone, hgone, rfl, rfl⟩
    cases h.symm.trans (Lane.receive_eq_failed.2 ⟨hnone, hgone, rfl, rfl⟩)
    exact ⟨rfl, rfl⟩

theorem receive_gateway_eq_done : p.receive .gateway = (.done report, p') ↔
    ∃ rest, p.toGateway.reports = report :: rest ∧ p' = { p with toGateway.reports := rest } := by
  rcases h : p.toGateway.receive with ⟨attempt, lane⟩
  simp only [receive, h, Prod.mk.injEq]
  constructor
  · rintro ⟨rfl, rfl⟩
    obtain ⟨rest, hfirst, rfl⟩ := Lane.receive_eq_done.1 h
    exact ⟨rest, hfirst, rfl⟩
  · rintro ⟨rest, hfirst, rfl⟩
    cases h.symm.trans (Lane.receive_eq_done.2 ⟨rest, hfirst, rfl⟩)
    exact ⟨rfl, rfl⟩

theorem receive_host_eq_done : p.receive .host = (.done report, p') ↔
    ∃ rest, p.toHost.reports = report :: rest ∧ p' = { p with toHost.reports := rest } := by
  rcases h : p.toHost.receive with ⟨attempt, lane⟩
  simp only [receive, h, Prod.mk.injEq]
  constructor
  · rintro ⟨rfl, rfl⟩
    obtain ⟨rest, hfirst, rfl⟩ := Lane.receive_eq_done.1 h
    exact ⟨rest, hfirst, rfl⟩
  · rintro ⟨rest, hfirst, rfl⟩
    cases h.symm.trans (Lane.receive_eq_done.2 ⟨rest, hfirst, rfl⟩)
    exact ⟨rfl, rfl⟩

end Pipe

end Ctap.Gateway
