import LibSurvey.Proofs.Dwarf.Reading

/-!
The entries of a unit as the trees that their bytes spell: each entry, if it has children, is followed
by them and a closing zero. A walk over all entries goes through the trees depth first, and the children
of an entry are the roots of the trees within it, whatever stands deeper. Which trees a compiler writes
remains a separate obligation.
-/

namespace LibSurvey.Dwarf

/-- Entries beside each other, each with those within it. -/
inductive Forest where
  | nil
  | cons (entry : Entry) (within rest : Forest)

namespace Forest

/-- All entries depth first, each with what stands within it. -/
def nodes : Forest → List (Entry × Forest)
  | nil => []
  | cons entry within rest => (entry, within) :: (within.nodes ++ rest.nodes)

/-- The entries that stand within no other. -/
def roots : Forest → List Entry
  | nil => []
  | cons entry _ rest => entry :: rest.roots

def entries (forest : Forest) : List Entry :=
  forest.nodes.map Prod.fst

theorem entries_cons (entry : Entry) (within rest : Forest) :
    (cons entry within rest).entries = entry :: (within.entries ++ rest.entries) := by
  simp [entries, nodes]

end Forest

namespace CompiledUnit

variable {unit : CompiledUnit} {place after stop : Reader} {entry : Entry} {forest : Forest}

/-- Between two places stand the entries of a forest. What an entry says of its next sibling is
right. -/
inductive Stands (unit : CompiledUnit) : Reader → Forest → Reader → Prop where
  | nil (place : Reader) : Stands unit place .nil place
  | leaf {place read after stop : Reader} {entry : Entry} {rest : Forest} :
      unit.readEntry?.run place = .ok (some entry, read) →
      entry.abbreviation.hasChildren = false →
      entry.afterAttributes unit.header.encoding = .ok after →
      Stands unit after rest stop → Stands unit place (.cons entry .nil rest) stop
  | node {place read first last after stop : Reader} {entry : Entry} {within rest : Forest} :
      unit.readEntry?.run place = .ok (some entry, read) →
      entry.abbreviation.hasChildren = true →
      entry.afterAttributes unit.header.encoding = .ok first →
      Stands unit first within last → unit.readEntry?.run last = .ok (none, after) →
      (unit.sibling? entry = none ∨ unit.sibling? entry = some after) →
      Stands unit after rest stop → Stands unit place (.cons entry within rest) stop

/-- Only closing zeros stand from here to the end. -/
inductive Closes (unit : CompiledUnit) : Reader → Prop where
  | empty {place : Reader} : place.isEmpty = true → Closes unit place
  | zero {place after : Reader} : unit.readEntry?.run place = .ok (none, after) →
      Closes unit after → Closes unit place

/-- An entry takes a byte at least. -/
theorem size_read {found : Option Entry} (h : unit.readEntry?.run place = .ok (found, after)) :
    after.size < place.size :=
  takes_readEntry unit.header unit.abbreviations place found after h

theorem isEmpty_of_read {found : Option Entry} (h : unit.readEntry?.run place = .ok (found, after)) :
    place.isEmpty = false := by
  have hsize := size_read h
  simp only [Reader.size, Reader.isEmpty, decide_eq_false_iff_not] at hsize ⊢
  omega

/-- The attributes of an entry start where its abbreviation has been read. -/
theorem attributes_of_read (h : unit.readEntry?.run place = .ok (some entry, after)) :
    entry.attributes = after := by
  unfold readEntry? Entry.read? at h
  simp only [StateT.run_bind, StateT.run_get, pure_bind] at h
  cases hcode : Read.uleb.run place with
  | error fault =>
      rw [hcode] at h
      cases h
  | ok read =>
      obtain ⟨code, rest⟩ := read
      rw [hcode] at h
      change StateT.run (if code = 0 then _ else _) rest = _ at h
      split at h
      · cases h
      · split at h
        · cases h
          rfl
        · cases h

theorem size_afterAttributes {read : Reader}
    (hread : unit.readEntry?.run place = .ok (some entry, read))
    (h : entry.afterAttributes unit.header.encoding = .ok after) : after.size < place.size := by
  rw [Entry.afterAttributes, attributes_of_read hread] at h
  cases hvalues : (Entry.readAttributes unit.header.encoding entry.abbreviation.attributes).run read with
  | error fault =>
      rw [hvalues] at h
      cases h
  | ok result =>
      obtain ⟨values, rest⟩ := result
      rw [hvalues] at h
      cases h
      exact Nat.lt_of_le_of_lt (takes_readAttributes _ _ read values rest hvalues)
        (size_read hread)

theorem allFrom_zero {left : Nat} (h : unit.readEntry?.run place = .ok (none, after)) :
    unit.allFrom (left + 1) place = unit.allFrom left after := by
  rw [allFrom, if_neg (by simp [isEmpty_of_read h]), h]

theorem allFrom_entry {left : Nat} {read : Reader}
    (hread : unit.readEntry?.run place = .ok (some entry, read))
    (h : entry.afterAttributes unit.header.encoding = .ok after) :
    unit.allFrom (left + 1) place =
      (entry :: (unit.allFrom left after).1, (unit.allFrom left after).2) := by
  rw [allFrom, if_neg (by simp [isEmpty_of_read hread]), hread]
  simp only [h]

theorem Stands.size_le (stands : unit.Stands place forest stop) : stop.size ≤ place.size := by
  induction stands with
  | nil place => exact Nat.le_refl _
  | leaf hread _ hafter _ ih =>
      have := size_afterAttributes hread hafter
      omega
  | node hread _ hfirst _ hlast _ _ ihwithin ihrest =>
      have := size_afterAttributes hread hfirst
      have := size_read hlast
      omega

/-- A walk over all entries goes through a forest depth first and on from where that stops. -/
theorem Stands.allFrom (stands : unit.Stands place forest stop) (left : Nat)
    (h : place.size < left) :
    ∃ left', stop.size < left' ∧ unit.allFrom left place =
      (forest.entries ++ (unit.allFrom left' stop).1, (unit.allFrom left' stop).2) := by
  induction stands generalizing left with
  | nil place => exact ⟨left, h, rfl⟩
  | leaf hread _ hafter _ ih =>
      obtain ⟨left, rfl⟩ : ∃ less, left = less + 1 := ⟨left - 1, by omega⟩
      have hsize := size_afterAttributes hread hafter
      obtain ⟨left', hleft, hrest⟩ := ih left (by omega)
      refine ⟨left', hleft, ?_⟩
      rw [allFrom_entry hread hafter, hrest, Forest.entries_cons]
      rfl
  | node hread _ hfirst _ hlast _ _ ihwithin ihrest =>
      obtain ⟨left, rfl⟩ : ∃ less, left = less + 1 := ⟨left - 1, by omega⟩
      have hsize := size_afterAttributes hread hfirst
      obtain ⟨inner, hinner, hwithin⟩ := ihwithin left (by omega)
      obtain ⟨inner, rfl⟩ : ∃ less, inner = less + 1 := ⟨inner - 1, by omega⟩
      have hzero := size_read hlast
      obtain ⟨left', hleft, hrest⟩ := ihrest inner (by omega)
      refine ⟨left', hleft, ?_⟩
      rw [allFrom_entry hread hfirst, hwithin, allFrom_zero hlast, hrest, Forest.entries_cons]
      simp

theorem siblings_zero {left depth : Nat} (h : unit.readEntry?.run place = .ok (none, after)) :
    unit.siblings (left + 1) depth place =
      if depth = 0 then ([], none) else unit.siblings left (depth - 1) after := by
  rw [siblings, if_neg (by simp [isEmpty_of_read h]), h]

theorem siblings_entry {left depth deeper : Nat} {read : Reader}
    (hread : unit.readEntry?.run place = .ok (some entry, read))
    (h : unit.afterSubtree entry = .ok (after, deeper)) :
    unit.siblings (left + 1) depth place =
      ((if depth = 0 then [entry] else []) ++ (unit.siblings left (depth + deeper) after).1,
        (unit.siblings left (depth + deeper) after).2) := by
  rw [siblings, if_neg (by simp [isEmpty_of_read hread]), hread]
  simp only [h]
  split <;> rfl

/-- A walk over the entries of one level takes the roots of a forest there, and no entry where the
forest stands deeper, and goes on from where that stops. -/
theorem Stands.siblings (stands : unit.Stands place forest stop) (left depth : Nat)
    (h : place.size < left) :
    ∃ left', stop.size < left' ∧ unit.siblings left depth place =
      ((if depth = 0 then forest.roots else []) ++ (unit.siblings left' depth stop).1,
        (unit.siblings left' depth stop).2) := by
  induction stands generalizing left depth with
  | nil place => exact ⟨left, h, by split <;> rfl⟩
  | @leaf place read after stop entry rest hread hleaf hafter _ ih =>
      obtain ⟨left, rfl⟩ : ∃ less, left = less + 1 := ⟨left - 1, by omega⟩
      have hsize := size_afterAttributes hread hafter
      obtain ⟨left', hleft, hrest⟩ := ih left depth (by omega)
      have hnext : unit.afterSubtree entry = .ok (after, 0) := by
        simp [afterSubtree, hleaf, hafter, Except.map]
      refine ⟨left', hleft, ?_⟩
      rw [siblings_entry hread hnext, Nat.add_zero, hrest]
      split <;> simp [Forest.roots]
  | @node place read first last after stop entry within rest hread hparent hfirst inside hlast
      hsibling _ ihwithin ihrest =>
      obtain ⟨left, rfl⟩ : ∃ less, left = less + 1 := ⟨left - 1, by omega⟩
      have hsize := size_afterAttributes hread hfirst
      have hinside := inside.size_le
      have hzero := size_read hlast
      -- What stands within the entry is passed over, entry by entry or at once.
      obtain ⟨behind, hbehind, hpassed⟩ : ∃ behind, after.size < behind ∧
          unit.siblings (left + 1) depth place =
            ((if depth = 0 then [entry] else []) ++ (unit.siblings behind depth after).1,
              (unit.siblings behind depth after).2) := by
        rcases hsibling with hnone | hsome
        · have hnext : unit.afterSubtree entry = .ok (first, 1) := by
            simp [afterSubtree, hparent, hnone, hfirst, Except.map]
          obtain ⟨inner, hinner, hwithin⟩ := ihwithin left (depth + 1) (by omega)
          obtain ⟨inner, rfl⟩ : ∃ less, inner = less + 1 := ⟨inner - 1, by omega⟩
          refine ⟨inner, by omega, ?_⟩
          rw [siblings_entry hread hnext, hwithin, siblings_zero hlast]
          simp
        · have hnext : unit.afterSubtree entry = .ok (after, 0) := by
            simp [afterSubtree, hparent, hsome]
          exact ⟨left, by omega, siblings_entry hread hnext⟩
      obtain ⟨left', hleft, hrest⟩ := ihrest behind depth hbehind
      refine ⟨left', hleft, ?_⟩
      rw [hpassed, hrest]
      split <;> simp [Forest.roots]

/-- The children of an entry are the roots of what stands within it. -/
theorem Stands.children (stands : unit.Stands place forest stop) :
    ∀ node ∈ forest.nodes, unit.children node.1 = (node.2.roots, none) := by
  induction stands with
  | nil place => simp [Forest.nodes]
  | @leaf place read after stop entry rest hread hleaf hafter _ ih =>
      intro node hnode
      simp only [Forest.nodes, List.nil_append, List.mem_cons] at hnode
      rcases hnode with rfl | hnode
      · simp [CompiledUnit.children, hleaf, Forest.roots]
      · exact ih node hnode
  | @node place read first last after stop entry within rest hread hparent hfirst inside hlast _ _
      ihwithin ihrest =>
      intro node hnode
      simp only [Forest.nodes, List.mem_cons, List.mem_append] at hnode
      rcases hnode with rfl | hnode | hnode
      · obtain ⟨left, hleft, hchildren⟩ := inside.siblings _ 0 (Nat.lt_succ_self first.size)
        obtain ⟨left, rfl⟩ : ∃ less, left = less + 1 := ⟨left - 1, by omega⟩
        rw [CompiledUnit.children, if_pos hparent]
        simp only [hfirst]
        rw [hchildren, siblings_zero hlast]
        simp
      · exact ihwithin node hnode
      · exact ihrest node hnode

theorem Closes.allFrom (closes : unit.Closes place) (left : Nat) :
    unit.allFrom left place = ([], none) := by
  induction closes generalizing left with
  | empty hempty => cases left <;> simp [CompiledUnit.allFrom, hempty]
  | zero hzero _ ih =>
      cases left with
      | zero => rfl
      | succ left => rw [allFrom_zero hzero, ih]

/-- The trees that the bytes of a unit spell. -/
def Spells (unit : CompiledUnit) (forest : Forest) : Prop :=
  ∃ stop, unit.Stands unit.header.entries forest stop ∧ unit.Closes stop

/-- All entries of a unit and the fault that ends them. -/
def walk (unit : CompiledUnit) : List Entry × Option Fault :=
  unit.allFrom (unit.header.entries.size + 1) unit.header.entries

/-- A walk goes over the entries of a unit at any depth, in depth first order. -/
theorem Spells.walk_eq (spells : unit.Spells forest) : unit.walk = (forest.entries, none) := by
  obtain ⟨stop, stands, closes⟩ := spells
  obtain ⟨left, -, hall⟩ := stands.allFrom _ (Nat.lt_succ_self unit.header.entries.size)
  rw [walk, hall, closes.allFrom, List.append_nil]

/-- The children of an entry are the entries immediately within it. -/
theorem Spells.children (spells : unit.Spells forest) :
    ∀ node ∈ forest.nodes, unit.children node.1 = (node.2.roots, none) := by
  obtain ⟨stop, stands, -⟩ := spells
  exact stands.children

end CompiledUnit
end LibSurvey.Dwarf
