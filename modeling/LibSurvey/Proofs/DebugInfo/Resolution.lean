import LibSurvey.Proofs.DebugInfo.Chain
import LibSurvey.Proofs.Dwarf.Attributes

/-!
Where the type that an entry refers to ends, told by the entries of units alone: by the forms of
references, by tags and by attributes. With nothing known, a value that refers to a type resolves to the
end of its chain if that comes within the limit, and to nothing known if the chain is longer. What
earlier chains leave known remains a separate obligation.
-/

namespace LibSurvey.Dwarf
open DebugInfo (Final TypeEntry TypeGraph TypeNode TypeUnit)

/-- The tags of pointers and of references to values. -/
inductive PointerTag : Nat → Prop where
  | pointer : PointerTag 0x0f
  | reference : PointerTag 0x10
  | rvalueReference : PointerTag 0x42

/-- The tags of types that stand for another type. -/
inductive WrapperTag : Nat → Prop where
  | typedef : WrapperTag 0x16
  | const : WrapperTag 0x26
  | volatile : WrapperTag 0x35
  | restrict : WrapperTag 0x37
  | atomic : WrapperTag 0x47

theorem pointerTag_iff {tag : Nat} : PointerTag tag ↔ tag ∈ pointerTags := by
  constructor
  · intro h
    cases h <;> decide
  · intro h
    simp only [pointerTags, List.mem_cons, List.not_mem_nil, or_false] at h
    obtain rfl | rfl | rfl := h
    · exact .pointer
    · exact .reference
    · exact .rvalueReference

theorem wrapperTag_iff {tag : Nat} : WrapperTag tag ↔ tag ∈ wrapperTags := by
  constructor
  · intro h
    cases h <;> decide
  · intro h
    simp only [wrapperTags, List.mem_cons, List.not_mem_nil, or_false] at h
    obtain rfl | rfl | rfl | rfl | rfl := h
    · exact .typedef
    · exact .const
    · exact .volatile
    · exact .restrict
    · exact .atomic

theorem PointerTag.ne_base {tag : Nat} (h : PointerTag tag) : tag ≠ 0x24 := by
  cases h <;> decide

theorem WrapperTag.ne_base {tag : Nat} (h : WrapperTag tag) : tag ≠ 0x24 := by
  cases h <;> decide

theorem WrapperTag.not_pointer {tag : Nat} (h : WrapperTag tag) : ¬PointerTag tag := by
  intro other
  cases h <;> cases other

namespace CompiledUnit

/-- A place in the section of compilation units is the one of an offset at which an entry of the unit
can be. -/
structure Holds (unit : CompiledUnit) (place offset : Nat) : Prop where
  inInfo : unit.header.inInfo = true
  place_eq : place = unit.header.start + offset
  start_le : unit.header.entriesStart ≤ offset
  lt_stop : offset < unit.header.entriesStop

/-- An entry can be read at an offset. -/
def At (unit : CompiledUnit) (offset : Nat) (entry : Entry) : Prop :=
  ∃ place after, unit.header.entriesFrom? offset = .ok place ∧
    unit.readEntry?.run place = .ok (some entry, after)

variable {unit : CompiledUnit} {sections : Sections} {offset : Nat} {entry : Entry}

theorem holds_typeUnit {place : Nat} :
    (unit.typeUnit sections).Holds place offset ↔ unit.Holds place offset := by
  unfold TypeUnit.Holds typeUnit
  constructor
  · intro h
    obtain ⟨start, hstart, hplace, hfirst, hlast⟩ := h
    rw [Option.ite_none_right_eq_some] at hstart
    obtain ⟨inInfo, hstart⟩ := hstart
    obtain rfl := Option.some.inj hstart
    exact ⟨inInfo, hplace, hfirst, hlast⟩
  · intro h
    exact ⟨unit.header.start, if_pos h.inInfo, h.place_eq, h.start_le, h.lt_stop⟩

theorem typeEntry?_of_at (h : unit.At offset entry) :
    unit.typeEntry? sections offset =
      if entry.abbreviation.tag = baseTag then
        (unit.entryName sections entry).toOption.map TypeEntry.base
      else if pointerTags.contains entry.abbreviation.tag then some .pointer
      else if wrapperTags.contains entry.abbreviation.tag then
        (unit.attribute? entry typeName).toOption.map fun value =>
          .wrapper (value.map Value.typeReference)
      else some .other := by
  obtain ⟨place, after, hplace, hread⟩ := h
  have hentry : unit.header.entriesFrom? offset >>= unit.readEntry?.run =
      .ok (some entry, after) := by
    rw [hplace]
    exact hread
  rw [CompiledUnit.typeEntry?, hentry]

section Tags

/-! What an entry is as a type, by its tag. -/

theorem typeEntry?_base (h : unit.At offset entry) (tag : entry.abbreviation.tag = 0x24) :
    unit.typeEntry? sections offset =
      (unit.entryName sections entry).toOption.map TypeEntry.base := by
  have base : entry.abbreviation.tag = baseTag := tag
  rw [typeEntry?_of_at h, if_pos base]

theorem typeEntry?_pointer (h : unit.At offset entry) (tag : PointerTag entry.abbreviation.tag) :
    unit.typeEntry? sections offset = some .pointer := by
  have base : entry.abbreviation.tag ≠ baseTag := tag.ne_base
  have pointer : pointerTags.contains entry.abbreviation.tag = true :=
    List.contains_iff_mem.mpr (pointerTag_iff.mp tag)
  rw [typeEntry?_of_at h, if_neg base, if_pos pointer]

theorem typeEntry?_wrapper (h : unit.At offset entry) (tag : WrapperTag entry.abbreviation.tag) :
    unit.typeEntry? sections offset = (unit.attribute? entry 0x49).toOption.map fun value =>
      .wrapper (value.map Value.typeReference) := by
  have base : entry.abbreviation.tag ≠ baseTag := tag.ne_base
  have pointer : ¬pointerTags.contains entry.abbreviation.tag = true := fun hmem =>
    tag.not_pointer (pointerTag_iff.mpr (List.contains_iff_mem.mp hmem))
  have wrapper : wrapperTags.contains entry.abbreviation.tag = true :=
    List.contains_iff_mem.mpr (wrapperTag_iff.mp tag)
  rw [typeEntry?_of_at h, if_neg base, if_neg pointer, if_pos wrapper]
  rfl

theorem typeEntry?_other (h : unit.At offset entry) (base : entry.abbreviation.tag ≠ 0x24)
    (pointer : ¬PointerTag entry.abbreviation.tag) (wrapper : ¬WrapperTag entry.abbreviation.tag) :
    unit.typeEntry? sections offset = some .other := by
  have base : entry.abbreviation.tag ≠ baseTag := base
  rw [pointerTag_iff, ← List.contains_iff_mem] at pointer
  rw [wrapperTag_iff, ← List.contains_iff_mem] at wrapper
  rw [typeEntry?_of_at h, if_neg base, if_neg pointer, if_neg wrapper]

end Tags

theorem typeEntry?_of_not_at (h : ∀ entry, ¬unit.At offset entry) :
    unit.typeEntry? sections offset = none := by
  unfold typeEntry?
  split
  · rename_i entry after hentry
    cases hplace : unit.header.entriesFrom? offset with
    | error fault =>
        rw [hplace] at hentry
        cases hentry
    | ok place =>
        rw [hplace] at hentry
        exact absurd ⟨place, after, hplace, hentry⟩ (h entry)
  · rfl

end CompiledUnit

namespace Chain

section Relations

variable (units : List CompiledUnit) (sections : Sections)

/-- Where a value leads that refers to a type: to the number of a unit and an offset in it. A place in
the section belongs to the first unit that holds it, and a signature to the first unit that is for it;
values of other forms lead nowhere. -/
inductive Leads (unit : Nat) : Value → TypeNode → Prop where
  | inUnit (offset : Nat) : Leads unit (.unitRef offset) (unit, offset)
  | inSection {place offset : Nat} {before after : List CompiledUnit} {found : CompiledUnit} :
      units = before ++ found :: after → found.Holds place offset →
      (∀ earlier ∈ before, ∀ other, ¬earlier.Holds place other) →
      Leads unit (.sectionRef place) (before.length, offset)
  | bySignature {signature offset : Nat} {before after : List CompiledUnit} {found : CompiledUnit} :
      units = before ++ found :: after →
      found.header.typeSignature = some (signature, offset) →
      (∀ earlier ∈ before, ∀ other, earlier.header.typeSignature ≠ some (signature, other)) →
      Leads unit (.signatureRef signature) (before.length, offset)

/-- The entry at a node, with the unit that it is of. -/
def Stands (node : TypeNode) (unit : CompiledUnit) (entry : Entry) : Prop :=
  units[node.1]? = some unit ∧ unit.At node.2 entry

/-- What a type is by its entry alone. The tag of base types is `0x24`. -/
inductive Stops (node : TypeNode) : TypeCategory → Prop where
  | base {unit : CompiledUnit} {entry : Entry} {name : String} : Stands units node unit entry →
      entry.abbreviation.tag = 0x24 → unit.Named sections entry (.ok (some name)) →
      Stops node (.ofBaseName name)
  | nameless {unit : CompiledUnit} {entry : Entry} : Stands units node unit entry →
      entry.abbreviation.tag = 0x24 → unit.Named sections entry (.ok none) → Stops node .unknown
  | misnamed {unit : CompiledUnit} {entry : Entry} {fault : DebugInfo.ReadFault} :
      Stands units node unit entry → entry.abbreviation.tag = 0x24 →
      unit.Named sections entry (.error fault) → Stops node .unknown
  | pointer {unit : CompiledUnit} {entry : Entry} : Stands units node unit entry →
      PointerTag entry.abbreviation.tag → Stops node .pointer
  | bare {unit : CompiledUnit} {entry : Entry} : Stands units node unit entry →
      WrapperTag entry.abbreviation.tag → unit.attribute? entry 0x49 = .ok none → Stops node .void
  | unread {unit : CompiledUnit} {entry : Entry} {fault : Fault} : Stands units node unit entry →
      WrapperTag entry.abbreviation.tag → unit.attribute? entry 0x49 = .error fault →
      Stops node .unknown
  | other {unit : CompiledUnit} {entry : Entry} : Stands units node unit entry →
      entry.abbreviation.tag ≠ 0x24 → ¬PointerTag entry.abbreviation.tag →
      ¬WrapperTag entry.abbreviation.tag → Stops node .unknown
  | unreadable : (∀ unit entry, ¬Stands units node unit entry) → Stops node .unknown

/-- A typedef or qualified type, and the value of its attribute for the type below it. -/
inductive Wraps (node : TypeNode) (value : Value) : Prop where
  | intro {unit : CompiledUnit} {entry : Entry} : Stands units node unit entry →
      WrapperTag entry.abbreviation.tag → unit.attribute? entry 0x49 = .ok (some value) →
      Wraps node value

/-- A chain ends after so many entries in a category. It goes on only from a typedef or a qualified
type, to the type below it. -/
inductive Ends : Nat → Value → Nat → TypeCategory → Prop where
  | lost {unit : Nat} {value : Value} : (∀ node, ¬Leads units unit value node) →
      Ends unit value 0 .unknown
  | stops {unit : Nat} {value : Value} {node : TypeNode} {category : TypeCategory} :
      Leads units unit value node → Stops units sections node category → Ends unit value 1 category
  | next {unit : Nat} {value inner : Value} {node : TypeNode} {n : Nat} {category : TypeCategory} :
      Leads units unit value node → Wraps units node inner → Ends node.1 inner n category →
      Ends unit value (n + 1) category

/-- The first entries of a chain, so many, are all typedefs or qualified types with a type below. -/
inductive Passes : Nat → Value → Nat → Prop where
  | none {unit : Nat} {value : Value} : Passes unit value 0
  | next {unit : Nat} {value inner : Value} {node : TypeNode} {n : Nat} :
      Leads units unit value node → Wraps units node inner → Passes node.1 inner n →
      Passes unit value (n + 1)

end Relations

variable {units : List CompiledUnit} {sections : Sections} {unit n limit : Nat} {value inner : Value}
  {node : TypeNode} {category : TypeCategory}

/-- A node of the first unit of a kind, told of units as they were before. -/
theorem first_map {at_ : TypeUnit → Nat → Prop} :
    TypeGraph.First (units.map (·.typeUnit sections)) at_ node ↔
      ∃ before found after, units = before ++ found :: after ∧ node.1 = before.length ∧
        at_ (found.typeUnit sections) node.2 ∧
        ∀ earlier ∈ before, ∀ offset, ¬at_ (earlier.typeUnit sections) offset := by
  constructor
  · intro h
    obtain ⟨before, found, after, hsplit, hindex, hfound, hbefore⟩ := h
    obtain ⟨front, back, rfl, rfl, hback⟩ := List.map_eq_append_iff.mp hsplit
    obtain ⟨head, tail, rfl, rfl, rfl⟩ := List.map_eq_cons_iff.mp hback
    refine ⟨front, head, tail, rfl, by simpa using hindex, hfound, fun earlier hearlier => ?_⟩
    exact hbefore _ (List.mem_map_of_mem hearlier)
  · intro h
    obtain ⟨before, found, after, rfl, hindex, hfound, hbefore⟩ := h
    refine ⟨before.map (·.typeUnit sections), found.typeUnit sections,
      after.map (·.typeUnit sections), by simp, by simpa using hindex, hfound, ?_⟩
    intro earlier hearlier
    obtain ⟨unit, hunit, rfl⟩ := List.mem_map.mp hearlier
    exact hbefore unit hunit

theorem leads_iff (sections : Sections) : Leads units unit value node ↔
    TypeGraph.Refers (units.map (·.typeUnit sections)) unit value.typeReference node := by
  constructor
  · intro h
    cases h with
    | inUnit offset => rfl
    | inSection hsplit holds hbefore =>
        refine first_map.mpr ⟨_, _, _, hsplit, rfl, CompiledUnit.holds_typeUnit.mpr holds, ?_⟩
        intro earlier hearlier offset h
        exact hbefore earlier hearlier offset (CompiledUnit.holds_typeUnit.mp h)
    | @bySignature signature offset before after found hsplit hsignature hbefore =>
        have first : TypeGraph.First (units.map (·.typeUnit sections))
            (fun unit offset => unit.typeSignature = some (signature, offset))
            (before.length, offset) :=
          first_map.mpr ⟨before, found, after, hsplit, rfl, hsignature, hbefore⟩
        exact first
  · intro h
    obtain ⟨index, offset⟩ := node
    cases value with
    | unitRef place =>
        obtain ⟨rfl, rfl⟩ := Prod.mk.inj h
        exact .inUnit offset
    | sectionRef place =>
        obtain ⟨before, found, after, hsplit, hindex, holds, hbefore⟩ := first_map.mp h
        obtain rfl : index = before.length := hindex
        refine .inSection hsplit (CompiledUnit.holds_typeUnit.mp holds) ?_
        intro earlier hearlier other hother
        exact hbefore earlier hearlier other (CompiledUnit.holds_typeUnit.mpr hother)
    | signatureRef signature =>
        have first : TypeGraph.First (units.map (·.typeUnit sections))
            (fun unit offset => unit.typeSignature = some (signature, offset)) (index, offset) := h
        obtain ⟨before, found, after, hsplit, hindex, hsignature, hbefore⟩ := first_map.mp first
        obtain rfl : index = before.length := hindex
        exact .bySignature hsplit hsignature hbefore
    | _ => cases h

theorem Stands.entry?_eq {owner : CompiledUnit} {entry : Entry} (h : Stands units node owner entry) :
    TypeGraph.entry? (units.map (·.typeUnit sections)) node = owner.typeEntry? sections node.2 := by
  rw [TypeGraph.entry?, List.getElem?_map, h.1]
  rfl

theorem entry?_of_not_stands (h : ∀ unit entry, ¬Stands units node unit entry) :
    TypeGraph.entry? (units.map (·.typeUnit sections)) node = none := by
  rw [TypeGraph.entry?, List.getElem?_map]
  cases hunit : units[node.1]? with
  | none => rfl
  | some owner => exact CompiledUnit.typeEntry?_of_not_at fun entry hat => h owner entry ⟨hunit, hat⟩

theorem Stops.final (h : Stops units sections node category) :
    Final (TypeGraph.entry? (units.map (·.typeUnit sections)) node) category := by
  cases h with
  | base stands tag named =>
      rw [stands.entry?_eq, CompiledUnit.typeEntry?_base stands.2 tag, named.eq]
      exact .base _
  | nameless stands tag named =>
      rw [stands.entry?_eq, CompiledUnit.typeEntry?_base stands.2 tag, named.eq]
      exact .nameless
  | misnamed stands tag named =>
      rw [stands.entry?_eq, CompiledUnit.typeEntry?_base stands.2 tag, named.eq]
      exact .unreadable
  | pointer stands tag =>
      rw [stands.entry?_eq, CompiledUnit.typeEntry?_pointer stands.2 tag]
      exact .pointer
  | bare stands tag type =>
      rw [stands.entry?_eq, CompiledUnit.typeEntry?_wrapper stands.2 tag, type]
      exact .bare
  | unread stands tag type =>
      rw [stands.entry?_eq, CompiledUnit.typeEntry?_wrapper stands.2 tag, type]
      exact .unreadable
  | other stands base pointer wrapper =>
      rw [stands.entry?_eq, CompiledUnit.typeEntry?_other stands.2 base pointer wrapper]
      exact .other
  | unreadable h =>
      rw [entry?_of_not_stands h]
      exact .unreadable

theorem Wraps.entry?_eq (h : Wraps units node value) :
    TypeGraph.entry? (units.map (·.typeUnit sections)) node =
      some (.wrapper (some value.typeReference)) := by
  cases h with
  | intro stands tag type =>
      rw [stands.entry?_eq, CompiledUnit.typeEntry?_wrapper stands.2 tag, type]
      rfl

/-- Every node is one of these. -/
theorem stops_or_wraps (units : List CompiledUnit) (sections : Sections) (node : TypeNode) :
    (∃ category, Stops units sections node category) ∨ ∃ value, Wraps units node value := by
  by_cases h : ∃ unit entry, Stands units node unit entry
  · obtain ⟨unit, entry, stands⟩ := h
    by_cases base : entry.abbreviation.tag = 0x24
    · have named := @CompiledUnit.named_entryName unit sections entry
      cases hname : unit.entryName sections entry with
      | error fault => exact .inl ⟨_, .misnamed stands base (hname ▸ named)⟩
      | ok name =>
          cases name with
          | none => exact .inl ⟨_, .nameless stands base (hname ▸ named)⟩
          | some name => exact .inl ⟨_, .base stands base (hname ▸ named)⟩
    · by_cases points : PointerTag entry.abbreviation.tag
      · exact .inl ⟨_, .pointer stands points⟩
      · by_cases wrapper : WrapperTag entry.abbreviation.tag
        · cases type : unit.attribute? entry 0x49 with
          | error fault => exact .inl ⟨_, .unread stands wrapper type⟩
          | ok found =>
              cases found with
              | none => exact .inl ⟨_, .bare stands wrapper type⟩
              | some value => exact .inr ⟨value, .intro stands wrapper type⟩
        · exact .inl ⟨_, .other stands base points wrapper⟩
  · exact .inl ⟨_, .unreadable fun unit entry stands => h ⟨unit, entry, stands⟩⟩

theorem Ends.graph (h : Ends units sections unit value n category) :
    TypeGraph.Ends (units.map (·.typeUnit sections)) unit value.typeReference n category := by
  induction h with
  | lost h => exact .lost fun node refers => h node ((leads_iff sections).mpr refers)
  | stops leads stops => exact .final ((leads_iff sections).mp leads) stops.final
  | next leads wraps _ ih => exact .next ((leads_iff sections).mp leads) wraps.entry?_eq ih

theorem Passes.graph (sections : Sections) (h : Passes units unit value n) :
    TypeGraph.Passes (units.map (·.typeUnit sections)) unit value.typeReference n := by
  induction h with
  | none => exact .none
  | next leads wraps _ ih => exact .next ((leads_iff sections).mp leads) wraps.entry?_eq ih

/-- A chain ends within a number of entries or passes them all. -/
theorem ends_or_passes (units : List CompiledUnit) (sections : Sections) (limit unit : Nat)
    (value : Value) :
    (∃ n ≤ limit, ∃ category, Ends units sections unit value n category) ∨
      Passes units unit value limit := by
  induction limit generalizing unit value with
  | zero => exact .inr .none
  | succ limit ih =>
      by_cases found : ∃ node, Leads units unit value node
      · obtain ⟨node, leads⟩ := found
        cases stops_or_wraps units sections node with
        | inl stops =>
            obtain ⟨category, stops⟩ := stops
            exact .inl ⟨1, Nat.le_add_left 1 limit, category, .stops leads stops⟩
        | inr wraps =>
            obtain ⟨inner, wraps⟩ := wraps
            cases ih node.1 inner with
            | inl ends =>
                obtain ⟨n, hn, category, ends⟩ := ends
                exact .inl ⟨n + 1, Nat.succ_le_succ hn, category, .next leads wraps ends⟩
            | inr passes => exact .inr (.next leads wraps passes)
      · exact .inl ⟨0, Nat.zero_le _, .unknown, .lost fun node leads => found ⟨node, leads⟩⟩

/-- With nothing known, a value that refers to a type resolves to the end of its chain if that comes
within 32 entries, and to nothing known if the first 32 are all typedefs or qualified types with a type
below; every chain is one of these. -/
theorem resolve_value (units : List CompiledUnit) (sections : Sections) (unit : Nat) (value : Value) :
    let graph : TypeGraph := units.map (·.typeUnit sections)
    let found := (graph.resolve ∅ unit value.typeReference).1
    (∀ n category, n ≤ 32 → Ends units sections unit value n category → found = category) ∧
    (Passes units unit value 32 → found = .unknown) ∧
    ((∃ n ≤ 32, ∃ category, Ends units sections unit value n category) ∨
      Passes units unit value 32) := by
  intro graph found
  obtain ⟨ended, passed, -⟩ :=
    TypeGraph.resolve_empty (units.map (·.typeUnit sections)) unit value.typeReference
  refine ⟨?_, ?_, ends_or_passes units sections 32 unit value⟩
  · intro n category hn ends
    exact ended n category hn ends.graph
  · intro passes
    exact passed (passes.graph sections)

/-- A base type with a name and one without, a typedef, a constant type, a pointer, a volatile type with
nothing below it, a structure and a restricted type. Types are given by an offset in the unit, a place in
the section and a signature. -/
def spreadForms : List (Nat × Abbreviation) :=
  [(1, ⟨0x24, false, [⟨0x03, 0x08⟩]⟩), (2, ⟨0x16, false, [⟨0x49, 0x11⟩]⟩),
    (3, ⟨0x26, false, [⟨0x49, 0x10⟩]⟩), (4, ⟨0x0f, false, []⟩), (5, ⟨0x35, false, []⟩),
    (6, ⟨0x13, false, []⟩), (7, ⟨0x37, false, [⟨0x49, 0x20⟩]⟩)]

def spreadUnit (inInfo : Bool) (start : Nat) (typeSignature : Option (Nat × Nat))
    (bytes : ByteArray) (stop : Nat) : CompiledUnit where
  header :=
    { inInfo, start, typeSignature
      encoding := ⟨4, 8, false⟩
      abbreviations := 0
      entries := ⟨bytes, .little, start, stop⟩ }
  abbreviations := .ofList spreadForms
  stringBase := 0

/-- A typedef for a constant type, for a restricted type of the second unit, for the base type that the
third unit is for. Beside the typedef stand a pointer, a type with nothing below it, and a typedef for
itself. -/
def spread : List CompiledUnit :=
  let info : ByteArray :=
    ⟨#[2, 2, 3, 13, 0, 0, 0, 4, 5, 6, 2, 10, 6, 7, 42, 0, 0, 0, 0, 0, 0, 0]⟩
  let types : ByteArray := ⟨#[6, 1, 0x63, 0x68, 0x61, 0x72, 0]⟩
  [spreadUnit true 0 none info 12, spreadUnit true 12 none info 22,
    spreadUnit false 0 (some (42, 1)) types 7]

theorem ends_spread : Ends spread .bare 0 (.unitRef 0) 4 (.ofBaseName "char") := by
  have typedef : Wraps spread (0, 0) (.unitRef 2) :=
    .intro ⟨rfl, _, _, rfl, by with_unfolding_all rfl⟩ .typedef (by with_unfolding_all rfl)
  have const : Wraps spread (0, 2) (.sectionRef 13) :=
    .intro ⟨rfl, _, _, rfl, by with_unfolding_all rfl⟩ .const (by with_unfolding_all rfl)
  have restrict : Wraps spread (1, 1) (.signatureRef 42) :=
    .intro ⟨rfl, _, _, rfl, by with_unfolding_all rfl⟩ .restrict (by with_unfolding_all rfl)
  have base : Stops spread .bare (2, 1) (.ofBaseName "char") :=
    .base ⟨rfl, _, _, rfl, by with_unfolding_all rfl⟩ rfl
      (.present (by with_unfolding_all rfl) (by with_unfolding_all rfl))
  have there : Leads spread 0 (.sectionRef 13) (1, 1) := by
    refine (leads_iff .bare).mpr (TypeGraph.target?_eq_some_iff.mp ?_)
    decide +kernel
  have back : Leads spread 1 (.signatureRef 42) (2, 1) := by
    refine (leads_iff .bare).mpr (TypeGraph.target?_eq_some_iff.mp ?_)
    decide +kernel
  exact .next (.inUnit 0) typedef (.next (.inUnit 2) const (.next there restrict (.stops back base)))

/-- The typedef for itself has no end. -/
theorem passes_spread (n : Nat) : Passes spread 0 (.unitRef 10) n := by
  have itself : Wraps spread (0, 10) (.unitRef 10) :=
    .intro ⟨rfl, _, _, rfl, by with_unfolding_all rfl⟩ .typedef (by with_unfolding_all rfl)
  induction n with
  | zero => exact .none
  | succ n ih => exact .next (.inUnit 10) itself ih

theorem resolve_value_spread :
    let graph : TypeGraph := spread.map (·.typeUnit .bare)
    (Ends spread .bare 0 (.unitRef 0) 4 .int ∧ (graph.resolve ∅ 0 (.inUnit 0)).1 = .int) ∧
    (Ends spread .bare 0 (.unitRef 7) 1 .pointer ∧
      (graph.resolve ∅ 0 (.inUnit 7)).1 = .pointer) ∧
    (Ends spread .bare 0 (.unitRef 8) 1 .void ∧ (graph.resolve ∅ 0 (.inUnit 8)).1 = .void) ∧
    (Ends spread .bare 0 (.unitRef 9) 1 .unknown ∧
      (graph.resolve ∅ 0 (.inUnit 9)).1 = .unknown) ∧
    Passes spread 0 (.unitRef 10) 32 ∧ (graph.resolve ∅ 0 (.inUnit 10)).1 = .unknown := by
  have base : Ends spread .bare 0 (.unitRef 0) 4 .int := ends_spread
  have pointer : Ends spread .bare 0 (.unitRef 7) 1 .pointer :=
    .stops (.inUnit 7) (.pointer ⟨rfl, _, _, rfl, by with_unfolding_all rfl⟩ .pointer)
  have bare : Ends spread .bare 0 (.unitRef 8) 1 .void :=
    .stops (.inUnit 8) (.bare ⟨rfl, _, _, rfl, by with_unfolding_all rfl⟩ .volatile
      (by with_unfolding_all rfl))
  have other : Ends spread .bare 0 (.unitRef 9) 1 .unknown := by
    refine .stops (.inUnit 9) (.other ⟨rfl, _, _, rfl, by with_unfolding_all rfl⟩ ?_ ?_ ?_)
    · decide
    · intro h
      cases h
    · intro h
      cases h
  have ended {value : Value} {n : Nat} {category : TypeCategory} (hn : n ≤ 32)
      (ends : Ends spread .bare 0 value n category) :
      (TypeGraph.resolve (spread.map (·.typeUnit .bare)) ∅ 0 value.typeReference).1 = category :=
    (resolve_value spread .bare 0 value).1 n category hn ends
  exact ⟨⟨base, ended (by decide) base⟩, ⟨pointer, ended (by decide) pointer⟩,
    ⟨bare, ended (by decide) bare⟩, ⟨other, ended (by decide) other⟩, passes_spread 32,
    (resolve_value spread .bare 0 (.unitRef 10)).2.1 (passes_spread 32)⟩

end Chain
end LibSurvey.Dwarf
