/-
From one set of groups to another.

A plan lists the groups to remove and the groups to add. A group whose object changed is
removed and added again; it is never changed in place. `Plan.operations` puts every
removal before every addition and ends with one commit, which is left out only when there
is no group on either side.
-/
import PacketClassifier.Provision.Operation

namespace PacketClassifier

/-- What leads from one set of groups to another. -/
structure Plan where
  /-- The groups to remove, as they were. -/
  removals : List DscpGroup
  additions : List DscpGroup
  /-- Whether there is anything to put into effect. -/
  commits : Bool
  deriving Repr

namespace Plan

/-- The old group that a new one replaces, if there is one and its object differs. -/
def replaced? (old : DscpGroup.Table) (g : DscpGroup) : Option DscpGroup :=
  (old.lookup g.name).filter fun before => !before.same g

/-- Whether a new group stands in the old set with the same object. -/
def unchanged (old : DscpGroup.Table) (g : DscpGroup) : Bool :=
  match old.lookup g.name with
  | some before => before.same g
  | none => false

/-- The plan from one set of groups to another: first what is replaced, in the new order,
then what disappears, in the old order. -/
def between (old new : DscpGroup.Table) : Plan where
  removals := (new.map (·.2)).filterMap (replaced? old)
    ++ (old.map (·.2)).filter fun g => !Assoc.contains new g.name
  additions := (new.map (·.2)).filter fun g => !unchanged old g
  commits := !(old.isEmpty && new.isEmpty)

/-- The plan from the groups of one document to those of another. -/
def ofDocuments (old new : Json) : Plan :=
  between (DscpGroup.inDocument old) (DscpGroup.inDocument new)

/-- The operations of a plan: removals, additions, commit. -/
def operations (p : Plan) : List Operation :=
  p.removals.map Operation.remove ++ p.additions.map Operation.create
    ++ (if p.commits then [Operation.commit] else [])

end Plan

end PacketClassifier
