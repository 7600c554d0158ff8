/-
Delivery of operations to a store.

A store is anything that takes or refuses one operation at a time; `deliver` offers it a
list of operations in order and stops at the first refusal. `Store.recording` takes
everything and remembers it, and `Store.limited` takes only so many operations.
-/
import PacketClassifier.Provision.Plan

namespace PacketClassifier

/-- A store: its answer to an operation, given in the monad where it lives. -/
abbrev Store (m : Type → Type) := Operation → m (Except StoreFault Unit)

/-- Offers operations in order until one is refused. -/
def deliver {m : Type → Type} [Monad m] (store : Store m) :
    List Operation → m (Except StoreFault Unit)
  | [] => pure (.ok ())
  | o :: os => do
    match ← store o with
    | .ok () => deliver store os
    | .error e => pure (.error e)

/-- Offers the operations of a plan, and gives their number when all are taken. -/
def Plan.deliver {m : Type → Type} [Monad m] (store : Store m) (p : Plan) :
    m (Except StoreFault Nat) := do
  return (← PacketClassifier.deliver store p.operations).map fun _ => p.operations.length

namespace Store

/-- Takes every operation; the state is what was taken, in order. -/
def recording : Store (StateM (List Operation)) := fun o taken => (.ok (), taken ++ [o])

/-- Takes operations until there are `limit` of them, and then fails in the given way. -/
def limited (limit : Nat) (fault : Operation → StoreFault) :
    Store (StateM (List Operation)) := fun o taken =>
  if taken.length < limit then (.ok (), taken ++ [o]) else (.error (fault o), taken)

end Store

end PacketClassifier
