import CpperoMQ.ObjectOperations

/-!
# Contexts and the sockets created from them

`~Context` calls `zmq_ctx_term`, which waits until the sockets of the context are
closed: a program that gets there first waits for itself. Nothing in the objects
links a socket to its context. A caller who follows the objects alone, through
moves and assignments, knows which sockets descend from which context; destroying
no `Context` object before the objects of its descendants is what keeps every
`zmq_ctx_term` from waiting, and nothing less is.
-/
namespace CpperoMQ
open Effects OwnedValues

/-! ### libzmq -/

/-- The libzmq functions that open and close contexts and sockets. -/
structure LifetimeApi extends ContextApi, SocketApi

namespace LifetimeApi

structure View (A : LifetimeApi) where
  isContext : A.State → ContextHandle → Prop
  /-- The context of an open socket. -/
  contextOf : A.State → Handle → Option ContextHandle

namespace View
variable {A : LifetimeApi} (V : A.View)

def isSocket (σ : A.State) (h : Handle) : Prop := (V.contextOf σ h).isSome = true

/-- Nothing was opened or closed. -/
def Same (σ σ' : A.State) : Prop :=
  V.isContext σ' = V.isContext σ ∧ V.contextOf σ' = V.contextOf σ

/-- Sockets are created in open contexts, and handles are given out when they are not
in use. `zmq_ctx_term` succeeds on a context that has no open sockets; nothing is said
for others, where it does not return before they are closed. -/
structure Laws : Prop where
  within : ∀ σ h c, V.contextOf σ h = some c → V.isContext σ c
  ctxNew : ∀ σ c σ', A.ctxNew σ = (some c, σ') →
    ¬V.isContext σ c ∧ (∀ g, V.isContext σ' g ↔ V.isContext σ g ∨ g = c) ∧
      V.contextOf σ' = V.contextOf σ
  ctxNull : ∀ σ σ', A.ctxNew σ = (none, σ') → V.Same σ σ'
  ctxSet : ∀ c name value σ, V.Same σ (A.ctxSet c name value σ).2
  ctxTerm : ∀ c σ, V.isContext σ c → (∀ h, V.contextOf σ h ≠ some c) →
    ∃ σ', A.ctxTerm c σ = (0, σ') ∧ (∀ g, V.isContext σ' g ↔ V.isContext σ g ∧ g ≠ c) ∧
      V.contextOf σ' = V.contextOf σ
  socket : ∀ c type σ h σ', A.socket (some c) type σ = (some h, σ') →
    V.contextOf σ h = none ∧ V.isContext σ' = V.isContext σ ∧
      V.contextOf σ' = Function.update (V.contextOf σ) h (some c)
  socketNull : ∀ context type σ σ', A.socket context type σ = (none, σ') → V.Same σ σ'
  close : ∀ h σ, V.isSocket σ h →
    ∃ σ', A.close h σ = (0, σ') ∧ V.isContext σ' = V.isContext σ ∧
      V.contextOf σ' = Function.update (V.contextOf σ) h none

end View
end LifetimeApi

/-! ### Programs with both kinds of objects -/

structure ProgramWorld (A : LifetimeApi) where
  zmq : A.State
  contexts : ObjectPool Context
  contextCalls : List ContextCall
  sockets : ObjectPool SocketObject
  socketCalls : List SocketCall

namespace ProgramWorld
variable {A : LifetimeApi}

def initial (σ : A.State) : ProgramWorld A := ⟨σ, .empty, [], .empty, []⟩

def contextWorld (w : ProgramWorld A) : ContextWorld A.toContextApi :=
  ⟨w.zmq, w.contexts, w.contextCalls⟩

def socketWorld (w : ProgramWorld A) : SocketWorld A.toSocketApi :=
  ⟨w.zmq, w.sockets, w.socketCalls⟩

def setContexts (w : ProgramWorld A) (u : ContextWorld A.toContextApi) : ProgramWorld A :=
  { w with zmq := u.zmq, contexts := u.contexts, contextCalls := u.calls }

def setSockets (w : ProgramWorld A) (u : SocketWorld A.toSocketApi) : ProgramWorld A :=
  { w with zmq := u.zmq, sockets := u.sockets, socketCalls := u.calls }

end ProgramWorld

inductive ProgramOp where
  | context (op : ContextOp)
  /-- `context.create…Socket()` -/
  | createSocket (parent : ObjId) (type : SocketType) (elided : Bool)
  | socket (op : SocketOp)
  deriving Repr, DecidableEq

namespace ProgramOp
variable {A : LifetimeApi}

def perform (w : ProgramWorld A) : ProgramOp → Outcome Error Unit × ProgramWorld A
  | context op => (op.perform w.contextWorld).map id w.setContexts
  | createSocket parent type elided =>
    ((SocketOp.create type (w.contextWorld.mContext parent) elided).perform w.socketWorld).map
      id w.setSockets
  | socket op => (op.perform w.socketWorld).map id w.setSockets

/-- The objects named are alive. The constructors of sockets that take a pointer are
protected, so that sockets come from contexts. -/
def Allowed (w : ProgramWorld A) : ProgramOp → Prop
  | context op => op.Allowed w.contextWorld
  | createSocket parent _ _ => (w.contexts.get parent).isSome = true
  | socket (.create _ _ _) => False
  | socket op => op.Allowed w.socketWorld

/-- A socket is created from a context object that was moved from. -/
def LacksContext (w : ProgramWorld A) : ProgramOp → Prop
  | createSocket parent _ _ => w.contextWorld.mContext parent = none
  | _ => False

end ProgramOp

/-! ### What a caller can know -/

/-- For every object, by a number, the context it has or descends from. -/
structure Lineage where
  contexts : ObjectPool (Option ℕ)
  sockets : ObjectPool (Option ℕ)
  born : ℕ

/-- What the caller notes of an operation that returned. -/
def Lineage.note (l : Lineage) : ProgramOp → Lineage
  | .context (.construct _ _) =>
    ⟨(Event.built l.born).apply l.contexts, l.sockets, l.born + 1⟩
  | .context (.newMove other) => { l with contexts := (Event.moved other).apply l.contexts }
  | .context (.assignMove this other) =>
    { l with contexts := (Event.exchanged this other).apply l.contexts }
  | .context (.destroy this) => { l with contexts := (Event.destroyed this).apply l.contexts }
  | .createSocket parent _ elided =>
    match l.contexts.get parent with
    | some (some n) =>
      { l with sockets :=
        (valueMachine ℕ).run l.sockets (creationEvents l.sockets.next elided n) }
    | _ => l
  | .socket (.create _ _ _) => l
  | .socket (.newMove other) => { l with sockets := (Event.moved other).apply l.sockets }
  | .socket (.assignMove this other) =>
    { l with sockets := (Event.exchanged this other).apply l.sockets }
  | .socket (.destroy this) => { l with sockets := (Event.destroyed this).apply l.sockets }

structure ProgramRun (A : LifetimeApi) where
  world : ProgramWorld A
  lineage : Lineage

namespace ProgramRun
variable {A : LifetimeApi}

def initial (σ : A.State) : ProgramRun A := ⟨.initial σ, .empty, .empty, 0⟩

def step (s : ProgramRun A) (op : ProgramOp) : ProgramRun A :=
  match op.perform s.world with
  | (.returned _, w) => ⟨w, s.lineage.note op⟩
  | (_, w) => ⟨w, s.lineage⟩

/-- A context object is destroyed after the socket objects that descend from what it has. -/
def OutlivesSockets (s : ProgramRun A) : ProgramOp → Prop
  | .context (.destroy this) => ∀ n, s.lineage.contexts.get this = some (some n) →
    ∀ j, s.lineage.sockets.get j ≠ some (some n)
  | _ => True

/-- `zmq_ctx_term` is called, if it is, when no socket of the context is open. -/
def TermsInTime (V : A.View) (s : ProgramRun A) : ProgramOp → Prop
  | .context (.destroy this) => ∀ c, s.world.contextWorld.mContext this = some c →
    ∀ h, V.contextOf s.world.zmq h ≠ some c
  | _ => True

end ProgramRun

def programMachine (A : LifetimeApi) : Machine (ProgramRun A) ProgramOp where
  step s op := s.step op
  Allowed s op := op.Allowed s.world

end CpperoMQ
