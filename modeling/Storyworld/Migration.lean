import Storyworld.State

/-!
# Migration

A rule carries the state of an older version over to the current catalog: identifiers are renamed
all at once, flags that no longer exist are dropped, and what refers to entities that are gone may
be dropped too. `State.dangling` lists what a catalog does not declare.
-/

namespace Storyworld

namespace MigrationRule

def renamed (r : MigrationRule) (kind : EntityKind) (id : EntityId) : EntityId :=
  ((r.rename.ofKind kind).get? id).getD id

def renamedKey (r : MigrationRule) (key : EntityKey) : EntityKey :=
  ⟨key.kind, r.renamed key.kind key.id⟩

/-- The current name of a flag. -/
def renamedFlag (r : MigrationRule) (name : String) : String := (r.rename.flags.get? name).getD name

def renamePlacement (r : MigrationRule) : Placement → Placement
  | .location l => .location (r.renamed .location l)
  | .holder c => .holder (r.renamed .character c)
  | p => p

def renameOverride (r : MigrationRule) : Override → Override
  | .item p d => .item (p.map r.renamePlacement) d
  | .character l d => .character (l.map (r.renamed .location)) d
  | o => o

def renameSet (r : MigrationRule) (kind : EntityKind) (ids : SortedSet EntityId) :
    SortedSet EntityId :=
  .ofList (ids.toList.map (r.renamed kind))

/-- Renames what a state refers to and drops the flags that no longer exist. Where two names become
one, what the later of them held stands. The victory keeps its name. -/
def renameState (r : MigrationRule) (s : State) : State :=
  { s with
    location := r.renamed .location s.location
    inventory := s.inventory.map (r.renamed .item)
    flags := .ofList ((s.flags.toList.filter fun e => !r.dropFlags.contains e.1).map fun e =>
      (r.renamedFlag e.1, e.2))
    counters := .ofList (s.counters.toList.map fun e => (r.renamed .character e.1, e.2))
    overrides := .ofList (s.overrides.toList.map fun e => (r.renamedKey e.1, r.renameOverride e.2))
    act := r.renamed .act s.act
    reachedActs := s.reachedActs.map (r.renamed .act)
    firedBeats := s.firedBeats.map (r.renamed .beat)
    completedSpokes := r.renameSet .spoke s.completedSpokes
    latchedBeats := r.renameSet .beat s.latchedBeats
    usedInteractions := r.renameSet .interaction s.usedInteractions }

end MigrationRule

namespace State

/-- Drops what refers to undeclared entities; the player's location and the acts are kept. -/
def discardMissing (c : Catalog) (s : State) : State :=
  { s with
    inventory := s.inventory.filter fun i => c.contains (.item i)
    counters := s.counters.filter fun ch _ => c.contains (.character ch)
    overrides := s.overrides.filter fun key o => c.contains key && o.targets.all c.contains
    firedBeats := s.firedBeats.filter fun b => c.contains (.beat b)
    latchedBeats := s.latchedBeats.filter fun b => c.contains (.beat b)
    completedSpokes := s.completedSpokes.filter fun sp => c.contains (.spoke sp)
    usedInteractions := s.usedInteractions.filter fun i => c.contains (.interaction i)
    victory := s.victory.filter fun v => c.contains (.victory v) }

/-- Everything that a state refers to. -/
def references (s : State) : List EntityKey :=
  .location s.location :: s.inventory.map .item ++ s.counters.keys.map .character ++
    s.overrides.toList.flatMap (fun e => e.1 :: e.2.targets) ++
    .act s.act :: s.reachedActs.map .act ++ s.firedBeats.map .beat ++
    s.latchedBeats.toList.map .beat ++ s.completedSpokes.toList.map .spoke ++
    s.usedInteractions.toList.map .interaction ++ s.victory.toList.map .victory

/-- The undeclared entities that a state refers to, written and sorted. -/
def dangling (c : Catalog) (s : State) : List String :=
  (SortedSet.ofList ((s.references.filter (!c.contains ·)).map EntityKey.text)).toList

end State
end Storyworld
