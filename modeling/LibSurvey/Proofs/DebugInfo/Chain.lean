import LibSurvey.DebugInfo.TypeGraph

/-!
Chains of types in debug information and where they end. A chain is told by the units and their entries
alone: no limit cuts it, and nothing is remembered of it. Resolving a reference with nothing known finds
the end of its chain if that lies within the limit. What earlier chains leave known remains a separate
obligation.
-/

namespace LibSurvey.DebugInfo

namespace TypeUnit

/-- A place in the section is the one of an offset at which an entry of the unit can be. -/
def Holds (unit : TypeUnit) (place offset : Nat) : Prop :=
  ∃ start, unit.start = some start ∧ place = start + offset ∧
    unit.entriesStart ≤ offset ∧ offset < unit.entriesStop

theorem offsetOf?_eq_some_iff {unit : TypeUnit} {place offset : Nat} :
    unit.offsetOf? place = some offset ↔ unit.Holds place offset := by
  unfold offsetOf? Holds
  cases unit.start with
  | none => simp
  | some start =>
      simp only [Option.some.injEq, exists_eq_left', Bool.and_eq_true, decide_eq_true_eq,
        Option.ite_none_right_eq_some]
      omega

theorem typeOf?_eq_some_iff {unit : TypeUnit} {signature offset : Nat} :
    unit.typeOf? signature = some offset ↔ unit.typeSignature = some (signature, offset) := by
  unfold typeOf?
  cases unit.typeSignature with
  | none => simp
  | some own => simp [Prod.ext_iff]

end TypeUnit

/-- What a type is by its entry alone: not a typedef or qualified type with a type below it. -/
inductive Final : Option TypeEntry → TypeCategory → Prop where
  | base (name : String) : Final (some (.base (some name))) (.ofBaseName name)
  | nameless : Final (some (.base none)) .unknown
  | pointer : Final (some .pointer) .pointer
  | bare : Final (some (.wrapper none)) .void
  | other : Final (some .other) .unknown
  | unreadable : Final none .unknown

theorem Final.exists_or_wrapper (entry : Option TypeEntry) :
    (∃ category, Final entry category) ∨ ∃ inner, entry = some (.wrapper (some inner)) := by
  match entry with
  | none => exact .inl ⟨_, .unreadable⟩
  | some (.base none) => exact .inl ⟨_, .nameless⟩
  | some (.base (some name)) => exact .inl ⟨_, .base name⟩
  | some .pointer => exact .inl ⟨_, .pointer⟩
  | some (.wrapper none) => exact .inl ⟨_, .bare⟩
  | some (.wrapper (some inner)) => exact .inr ⟨inner, rfl⟩
  | some .other => exact .inl ⟨_, .other⟩

namespace TypeGraph

variable {graph : TypeGraph} {unit n left : Nat} {reference inner : TypeReference}
  {node : TypeNode} {category : TypeCategory} {known : KnownTypes}

theorem firstNode?_eq_some_iff {offset? : TypeUnit → Option Nat} {index : Nat} :
    firstNode? offset? index graph = some node ↔
      ∃ (before : List TypeUnit) (found : TypeUnit) (after : List TypeUnit),
        graph = before ++ found :: after ∧ node.1 = index + before.length ∧
        offset? found = some node.2 ∧ ∀ earlier ∈ before, offset? earlier = none := by
  induction graph generalizing index with
  | nil => simp [firstNode?]
  | cons unit graph ih =>
      rw [firstNode?]
      cases hoffset : offset? unit with
      | some offset =>
          constructor
          · intro h
            obtain rfl := Option.some.inj h
            exact ⟨[], unit, graph, rfl, rfl, hoffset, by simp⟩
          · rintro ⟨before, found, after, hgraph, hindex, hfound, hbefore⟩
            cases before with
            | nil =>
                obtain ⟨rfl, -⟩ := List.cons.inj hgraph
                rw [hoffset] at hfound
                exact congrArg some (Prod.ext hindex.symm (Option.some.inj hfound))
            | cons earlier before =>
                obtain ⟨rfl, -⟩ := List.cons.inj hgraph
                simp [hoffset] at hbefore
      | none =>
          simp only [ih]
          constructor
          · rintro ⟨before, found, after, rfl, hindex, hfound, hbefore⟩
            refine ⟨unit :: before, found, after, rfl, ?_, hfound, ?_⟩
            · rw [hindex, List.length_cons]
              omega
            · simpa [hoffset] using hbefore
          · rintro ⟨before, found, after, hgraph, hindex, hfound, hbefore⟩
            cases before with
            | nil =>
                obtain ⟨rfl, -⟩ := List.cons.inj hgraph
                simp [hoffset] at hfound
            | cons earlier before =>
                obtain ⟨rfl, rfl⟩ := List.cons.inj hgraph
                refine ⟨before, found, after, rfl, ?_, hfound, fun u hu => hbefore u (by simp [hu])⟩
                rw [hindex, List.length_cons]
                omega

/-- A node of the first unit that has an offset of this kind. -/
def First (graph : TypeGraph) (at_ : TypeUnit → Nat → Prop) (node : TypeNode) : Prop :=
  ∃ before found after, graph = before ++ found :: after ∧ node.1 = before.length ∧
    at_ found node.2 ∧ ∀ earlier ∈ before, ∀ offset, ¬at_ earlier offset

theorem firstNode?_zero_eq_some_iff {offset? : TypeUnit → Option Nat}
    {at_ : TypeUnit → Nat → Prop}
    (h : ∀ unit offset, offset? unit = some offset ↔ at_ unit offset) :
    firstNode? offset? 0 graph = some node ↔ graph.First at_ node := by
  simp only [firstNode?_eq_some_iff, First, Nat.zero_add, h, Option.eq_none_iff_forall_ne_some,
    ne_eq]

/-- Where a reference in a unit leads. -/
def Refers (graph : TypeGraph) (unit : Nat) (reference : TypeReference) (node : TypeNode) : Prop :=
  match reference with
  | .inUnit offset => node = (unit, offset)
  | .inSection place => graph.First (fun unit offset => unit.Holds place offset) node
  | .bySignature signature =>
    graph.First (fun unit offset => unit.typeSignature = some (signature, offset)) node
  | .other => False

theorem target?_eq_some_iff :
    graph.target? unit reference = some node ↔ graph.Refers unit reference node := by
  cases reference with
  | inUnit offset => simp [target?, Refers, eq_comm]
  | inSection place => exact firstNode?_zero_eq_some_iff fun _ _ => TypeUnit.offsetOf?_eq_some_iff
  | bySignature signature =>
      exact firstNode?_zero_eq_some_iff fun _ _ => TypeUnit.typeOf?_eq_some_iff
  | other => simp [target?, Refers]

theorem target?_eq_none_iff :
    graph.target? unit reference = none ↔ ∀ node, ¬graph.Refers unit reference node := by
  simp only [Option.eq_none_iff_forall_ne_some, ne_eq, target?_eq_some_iff]

/-- A chain ends after so many entries in a category. It goes on only from a typedef or a qualified
type, to the type that this one is for. -/
inductive Ends (graph : TypeGraph) : Nat → TypeReference → Nat → TypeCategory → Prop where
  | lost {unit : Nat} {reference : TypeReference} :
      (∀ node, ¬graph.Refers unit reference node) → Ends graph unit reference 0 .unknown
  | final {unit : Nat} {reference : TypeReference} {node : TypeNode} {category : TypeCategory} :
      graph.Refers unit reference node → Final (graph.entry? node) category →
      Ends graph unit reference 1 category
  | next {unit : Nat} {reference inner : TypeReference} {node : TypeNode} {n : Nat}
      {category : TypeCategory} : graph.Refers unit reference node →
      graph.entry? node = some (.wrapper (some inner)) → Ends graph node.1 inner n category →
      Ends graph unit reference (n + 1) category

/-- The first entries of a chain, so many, are all typedefs or qualified types with a type below. -/
inductive Passes (graph : TypeGraph) : Nat → TypeReference → Nat → Prop where
  | none {unit : Nat} {reference : TypeReference} : Passes graph unit reference 0
  | next {unit : Nat} {reference inner : TypeReference} {node : TypeNode} {n : Nat} :
      graph.Refers unit reference node → graph.entry? node = some (.wrapper (some inner)) →
      Passes graph node.1 inner n → Passes graph unit reference (n + 1)

/-- A chain ends within a number of entries or passes them all. -/
theorem ends_or_passes (graph : TypeGraph) (limit unit : Nat) (reference : TypeReference) :
    (∃ n ≤ limit, ∃ category, graph.Ends unit reference n category) ∨
      graph.Passes unit reference limit := by
  induction limit generalizing unit reference with
  | zero => exact .inr .none
  | succ limit ih =>
      cases htarget : graph.target? unit reference with
      | none =>
          exact .inl ⟨0, Nat.zero_le _, .unknown, .lost (target?_eq_none_iff.mp htarget)⟩
      | some node =>
          rw [target?_eq_some_iff] at htarget
          rcases Final.exists_or_wrapper (graph.entry? node) with ⟨category, hfinal⟩ | ⟨inner, hentry⟩
          · exact .inl ⟨1, by omega, category, .final htarget hfinal⟩
          · rcases ih node.1 inner with ⟨n, hn, category, hends⟩ | hpasses
            · exact .inl ⟨n + 1, Nat.succ_le_succ hn, category, .next htarget hentry hends⟩
            · exact .inr (.next htarget hentry hpasses)

section Step

/-! One step of resolving a reference, by what stands at its target. -/

theorem resolveWithin_lost (h : ∀ node, ¬graph.Refers unit reference node) :
    graph.resolveWithin left known unit reference = (.unknown, known) := by
  cases left with
  | zero => rfl
  | succ left => rw [resolveWithin, target?_eq_none_iff.mpr h]

theorem resolveWithin_known (refers : graph.Refers unit reference node)
    (hknown : known.find? node = some category) :
    graph.resolveWithin (left + 1) known unit reference = (category, known) := by
  rw [resolveWithin, target?_eq_some_iff.mpr refers]
  simp only [hknown]

theorem resolveWithin_final (refers : graph.Refers unit reference node)
    (fresh : known.find? node = none) (final : Final (graph.entry? node) category) :
    graph.resolveWithin (left + 1) known unit reference =
      (category, known.remember node category) := by
  rw [resolveWithin, target?_eq_some_iff.mpr refers]
  simp only [fresh]
  generalize graph.entry? node = entry at final
  cases final <;> rfl

theorem resolveWithin_next (refers : graph.Refers unit reference node)
    (fresh : known.find? node = none) (entry : graph.entry? node = some (.wrapper (some inner))) :
    graph.resolveWithin (left + 1) known unit reference =
      ((graph.resolveWithin left known node.1 inner).1,
        (graph.resolveWithin left known node.1 inner).2.remember node
          (graph.resolveWithin left known node.1 inner).1) := by
  rw [resolveWithin, target?_eq_some_iff.mpr refers]
  simp only [fresh, entry]

end Step

theorem find?_empty (node : TypeNode) : KnownTypes.find? ∅ node = none := by
  simp [KnownTypes.find?]

/-- With nothing known, a chain that ends within the limit gives its end, and a longer one nothing. -/
theorem resolveWithin_empty_of_ends (ends : graph.Ends unit reference n category) (left : Nat) :
    (graph.resolveWithin left ∅ unit reference).1 = if n ≤ left then category else .unknown := by
  induction ends generalizing left with
  | lost h => simp [resolveWithin_lost h]
  | final refers final =>
      cases left with
      | zero => rfl
      | succ left => simp [resolveWithin_final refers (find?_empty _) final]
  | next refers entry _ ih =>
      cases left with
      | zero => rfl
      | succ left => simp [resolveWithin_next refers (find?_empty _) entry, ih]

theorem resolveWithin_empty_of_passes (passes : graph.Passes unit reference n) (h : left ≤ n) :
    (graph.resolveWithin left ∅ unit reference).1 = .unknown := by
  induction passes generalizing left with
  | none =>
      obtain rfl := Nat.le_zero.mp h
      rfl
  | next refers entry _ ih =>
      cases left with
      | zero => rfl
      | succ left =>
          rw [resolveWithin_next refers (find?_empty _) entry]
          exact ih (Nat.le_of_succ_le_succ h)

/-- With nothing known, a reference resolves to the end of its chain if that comes within 32 entries,
and to nothing if the first 32 are all typedefs or qualified types with a type below; every chain is
one of these. -/
theorem resolve_empty (graph : TypeGraph) (unit : Nat) (reference : TypeReference) :
    (∀ n category, n ≤ 32 → graph.Ends unit reference n category →
      (graph.resolve ∅ unit reference).1 = category) ∧
    (graph.Passes unit reference 32 → (graph.resolve ∅ unit reference).1 = .unknown) ∧
    ((∃ n ≤ 32, ∃ category, graph.Ends unit reference n category) ∨
      graph.Passes unit reference 32) := by
  refine ⟨fun n category hn ends => ?_, fun passes => ?_, ends_or_passes graph 32 unit reference⟩
  · exact (resolveWithin_empty_of_ends ends maxChain).trans (if_pos hn)
  · exact resolveWithin_empty_of_passes passes (Nat.le_refl 32)

end TypeGraph
end LibSurvey.DebugInfo
