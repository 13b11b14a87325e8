import FormBasic.Script.Basic

/-!
# Hosts

A host replies to the requests of scripts. It keeps a state of its own and may send signals to the
session, but it has no other access to the world. A box may stay open: the host then holds the
request back until some time has passed or until another handler has run.

## Main definitions

* `Hold` - what a held request waits for
* `Reception` - how a host receives a request
* `Host` - hosts with a state
-/

namespace FormBasic

/-- What a held request waits for. -/
inductive Hold where
  /-- Time in seconds. -/
  | delay (seconds : Rat)
  /-- An event that is raised while the box is open. -/
  | event (key : Text)

/-- How a host receives a request: it replies at once, or it holds the request and looks at it again
when what it waits for has happened. -/
inductive Reception (σ : Type) (request : Request) where
  | answered (state : σ) (signals : List Signal) (reply : Except Fault request.Reply)
  | held (state : σ) (signals : List Signal) (hold : Hold)
      (release : Except Fault Unit → σ → Reception σ request)

/-- A host with a state. -/
structure Host (σ : Type) where
  receive : (request : Request) → σ → Reception σ request

namespace Reception

variable {σ : Type} {request : Request}

/-- The reception with signals sent ahead of it. -/
def after (sent : List Signal) : Reception σ request → Reception σ request
  | .answered state signals reply => .answered state (sent ++ signals) reply
  | .held state signals hold release => .held state (sent ++ signals) hold release

/-- The reception by a host that does not hold requests: what a hold waits for is decided at once.
-/
def settled (decide : Hold → Except Fault Unit) : Reception σ request → Reception σ request
  | .answered state signals reply => .answered state signals reply
  | .held state signals hold release => ((release (decide hold) state).settled decide).after signals

end Reception

/-- The host that does not hold requests: what a hold waits for is decided at once. -/
def Host.settled {σ : Type} (host : Host σ) (decide : Hold → Except Fault Unit) : Host σ where
  receive request state := (host.receive request state).settled decide

/-- Alone, without a session, delays pass at once and there is nobody to raise an event. -/
def Hold.alone : Hold → Except Fault Unit
  | .delay _ => .ok ()
  | .event _ => .error .missingMember

end FormBasic
