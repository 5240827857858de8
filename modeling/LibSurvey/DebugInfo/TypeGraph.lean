import LibSurvey.DebugInfo.Category
import Std.Data.TreeMap

/-!
The graph of types in debug information. Its nodes are entries of units, its edges lead from
typedefs and qualified types to what they stand for, within a unit or across units. The category of
a type is found at the end of its chain, and is remembered for every node on the way.
-/

namespace LibSurvey.DebugInfo

/-- How an entry refers to a type. -/
inductive TypeReference where
  /-- An entry of the same unit, by its offset in the unit. -/
  | inUnit (offset : Nat)
  /-- An entry of any compilation unit, by its offset in the section. -/
  | inSection (offset : Nat)
  /-- The type of the type unit with this signature. -/
  | bySignature (signature : Nat)
  | other
deriving DecidableEq, Repr

/-- What an entry is as a type. -/
inductive TypeEntry where
  | base (name : Option String)
  /-- A pointer or a reference to a type. -/
  | pointer
  /-- A typedef or a qualified type. -/
  | wrapper (target : Option TypeReference)
  | other
deriving DecidableEq, Repr

/-- A unit as far as types go. -/
structure TypeUnit where
  /-- Where the unit starts in the section of compilation units, if it stands there. -/
  start : Option Nat
  /-- The offsets within the unit at which entries can be: from the first to below the second. -/
  entriesStart : Nat
  entriesStop : Nat
  /-- The signature of the type that the unit is for, and the offset of its entry. -/
  typeSignature : Option (Nat × Nat)
  /-- The entry at an offset, if it can be read. -/
  entry? : Nat → Option TypeEntry

abbrev TypeGraph := List TypeUnit

/-- The number of a unit and an offset in it. -/
abbrev TypeNode := Nat × Nat

/-- The categories that are known already, by the number of a unit and an offset in it. -/
abbrev KnownTypes := Std.TreeMap Nat (Std.TreeMap Nat TypeCategory)

namespace KnownTypes

def find? (known : KnownTypes) (node : TypeNode) : Option TypeCategory :=
  known[node.1]?.bind fun types => types[node.2]?

def remember (known : KnownTypes) (node : TypeNode) (category : TypeCategory) : KnownTypes :=
  known.insert node.1 ((known[node.1]?.getD ∅).insert node.2 category)

theorem find?_remember (known : KnownTypes) (node other : TypeNode) (category : TypeCategory) :
    (known.remember node category).find? other =
      if other = node then some category else known.find? other := by
  obtain ⟨unit, offset⟩ := node
  obtain ⟨otherUnit, otherOffset⟩ := other
  simp only [find?, remember, Std.TreeMap.getElem?_insert, Prod.mk.injEq, Nat.compare_eq_eq]
  by_cases hu : unit = otherUnit
  · subst hu
    by_cases ho : offset = otherOffset
    · subst ho
      simp
    · have : ¬ otherOffset = offset := fun h => ho h.symm
      cases known[unit]? <;> simp [Std.TreeMap.getElem?_insert, ho, this]
  · have : ¬ otherUnit = unit := fun h => hu h.symm
    simp [hu, this]

end KnownTypes

namespace TypeUnit

/-- The offset in the unit of a place in the section, if an entry can be there. -/
def offsetOf? (unit : TypeUnit) (place : Nat) : Option Nat :=
  match unit.start with
  | some start =>
    if start + unit.entriesStart ≤ place && place < start + unit.entriesStop then
      some (place - start)
    else none
  | none => none

/-- The offset of the type that the unit is for, if it has the given signature. -/
def typeOf? (unit : TypeUnit) (signature : Nat) : Option Nat :=
  match unit.typeSignature with
  | some (own, offset) => if own = signature then some offset else none
  | none => none

end TypeUnit

namespace TypeGraph

/-- The first unit for which a function has an offset, and that offset. -/
def firstNode? (offset? : TypeUnit → Option Nat) (index : Nat) : TypeGraph → Option TypeNode
  | [] => none
  | unit :: rest =>
    match offset? unit with
    | some offset => some (index, offset)
    | none => firstNode? offset? (index + 1) rest

/-- Where a reference in a unit leads. -/
def target? (graph : TypeGraph) (unit : Nat) : TypeReference → Option TypeNode
  | .inUnit offset => some (unit, offset)
  | .inSection place => firstNode? (·.offsetOf? place) 0 graph
  | .bySignature signature => firstNode? (·.typeOf? signature) 0 graph
  | .other => none

def entry? (graph : TypeGraph) (node : TypeNode) : Option TypeEntry :=
  graph[node.1]?.bind fun unit => unit.entry? node.2

/-- No chain is followed for more entries than this. -/
def maxChain : Nat := 32

/-- The category of the type that a reference leads to, following so many more entries, and all that
is known then. -/
def resolveWithin (graph : TypeGraph) :
    Nat → KnownTypes → Nat → TypeReference → TypeCategory × KnownTypes
  | 0, known, _, _ => (.unknown, known)
  | left + 1, known, unit, reference =>
    match graph.target? unit reference with
    | none => (.unknown, known)
    | some node =>
      match known.find? node with
      | some category => (category, known)
      | none =>
        let found : TypeCategory × KnownTypes := match graph.entry? node with
          | some (.base (some name)) => (.ofBaseName name, known)
          | some .pointer => (.pointer, known)
          | some (.wrapper none) => (.void, known)
          | some (.wrapper (some inner)) => graph.resolveWithin left known node.1 inner
          | _ => (.unknown, known)
        (found.1, found.2.remember node found.1)

def resolve (graph : TypeGraph) (known : KnownTypes) (unit : Nat) (reference : TypeReference) :
    TypeCategory × KnownTypes :=
  graph.resolveWithin maxChain known unit reference

end TypeGraph
end LibSurvey.DebugInfo
