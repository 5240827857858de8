import LibSurvey.FileTree
import LibSurvey.Proofs.Text.Split

/-!
Places in a tree of files and the paths that name them. A path leads to a place made of plain names,
a place is told by its path, and what stands there is told by the place; so paths of one canonical name
read alike. That links are followed as a real system follows them remains a separate obligation.
-/

namespace LibSurvey

/-- What a file counts as. -/
def FileView.key (files : FileView) (path : Path) : List Path.Component :=
  (files.identity path).components

/-- Files have names, and what has the same name reads the same. -/
structure FileView.Coherent (files : FileView) : Prop where
  name_of_read {path : Path} {content : ByteArray} :
    files.read path = .ok content → (files.canonical? path).isSome
  name_of_isFile {path : Path} : files.isFile path = true → (files.canonical? path).isSome
  read_of_same {p q a b : Path} {content : ByteArray} :
    files.canonical? p = some a → files.canonical? q = some b → a.same b = true →
      files.read p = .ok content → files.read q = .ok content

/-- A name that stands for an entry of a directory. -/
structure Plain (piece : String) : Prop where
  noSlash : '/' ∉ piece.toList
  nonempty : piece ≠ ""
  notHere : piece ≠ "."
  notUp : piece ≠ ".."

namespace Path

theorem componentOf_plain {piece : String} (plain : Plain piece) :
    componentOf piece = some (.name piece) := by
  have hempty : piece.isEmpty = false := by simpa using plain.nonempty
  simp [componentOf, hempty, plain.notHere, plain.notUp]

theorem noSlash_of_mem_pieces {path : Path} {piece : String} (h : piece ∈ path.pieces) :
    '/' ∉ piece.toList := by
  obtain ⟨chars, hchars, rfl⟩ := List.mem_map.mp h
  intro hslash
  rw [String.toList_ofList] at hslash
  exact absurd (Text.mem_splitAt hchars _ hslash) (by simp)

end Path

namespace FileTree

/-- Files with these names and texts in one directory. -/
def ofTexts (files : List (String × String)) : FileTree :=
  files.foldl (fun tree file => tree.insert ⟨file.1⟩ (.file file.2.toUTF8 false)) (empty ["w"])

theorem toList_placeText (place : List String) :
    (placeText place).toList = '/' :: ['/'].intercalate (place.map String.toList) := by
  simp [placeText, String.toList_intercalate]

theorem pieces_placeText {place : List String} (plain : ∀ piece ∈ place, Plain piece) :
    (Path.mk (placeText place)).pieces = "" :: if place = [] then [""] else place := by
  rw [Path.pieces, toList_placeText]
  cases place with
  | nil => rfl
  | cons first others =>
      have hfree : ∀ piece ∈ [] :: (first :: others).map String.toList, ∀ c ∈ piece,
          decide (c = '/') = false := by
        intro piece hpiece c hc
        rcases List.mem_cons.mp hpiece with rfl | hpiece
        · exact absurd hc List.not_mem_nil
        · obtain ⟨name, hname, rfl⟩ := List.mem_map.mp hpiece
          simpa using fun h : c = '/' => (plain name hname).noSlash (h ▸ hc)
      have hsplit := Text.splitAt_intercalate (decide_eq_true (Eq.refl '/')) (List.cons_ne_nil _ _) hfree
      rw [List.map_cons, List.intercalate_cons_cons] at hsplit
      rw [List.map_cons, if_neg (List.cons_ne_nil _ _)]
      have hjoined : '/' :: ['/'].intercalate (first.toList :: others.map String.toList) =
          [] ++ ['/'] ++ ['/'].intercalate (first.toList :: others.map String.toList) := rfl
      rw [hjoined, hsplit]
      simp [String.ofList_toList]

theorem components_placeText {place : List String} (plain : ∀ piece ∈ place, Plain piece) :
    (Path.mk (placeText place)).components = .root :: place.map .name := by
  have habsolute : (Path.mk (placeText place)).isAbsolute = true := by
    simp [Path.isAbsolute, toList_placeText]
  have hbody : ("" :: if place = [] then [""] else place).filterMap Path.componentOf =
      place.map .name := by
    by_cases h : place = []
    · subst h
      rfl
    · rw [if_neg h, List.filterMap_cons_none (by rfl), ← List.filterMap_eq_map]
      exact List.filterMap_congr fun piece hpiece => Path.componentOf_plain (plain piece hpiece)
  rw [Path.components, pieces_placeText plain, habsolute, if_pos rfl, hbody]

/-- What stands at a place, a directory unless the tree tells otherwise. -/
def nodeAt (tree : FileTree) (place : List String) : Node :=
  (tree.nodes[placeText place]?).getD .directory

theorem getD_node? (tree : FileTree) (place : List String) :
    (tree.node? place).getD .directory = tree.nodeAt place := by
  unfold node? nodeAt
  cases tree.nodes[placeText place]? with
  | some node => rfl
  | none =>
      simp only
      split <;> rfl

theorem plain_dropLast {place : List String} (plain : ∀ piece ∈ place, Plain piece) :
    ∀ piece ∈ place.dropLast, Plain piece :=
  fun piece h => plain piece (List.dropLast_subset _ h)

theorem plain_append {place : List String} {piece : String} (plain : ∀ piece ∈ place, Plain piece)
    (hpiece : Plain piece) : ∀ other ∈ place ++ [piece], Plain other := by
  intro other hother
  rcases List.mem_append.mp hother with h | h
  · exact plain other h
  · rwa [List.mem_singleton.mp h]

theorem follow_spec {tree : FileTree} {links bound : Nat} {place pieces ended : List String}
    {node : Node} (plain : ∀ piece ∈ place, Plain piece)
    (slashless : ∀ piece ∈ pieces, '/' ∉ piece.toList)
    (h : tree.follow links bound place pieces = .ok (ended, node)) :
    (∀ piece ∈ ended, Plain piece) ∧ node = tree.nodeAt ended := by
  induction bound generalizing links place pieces with
  | zero => exact absurd h (by simp [follow])
  | succ bound ih =>
      cases pieces with
      | nil =>
          simp only [follow, Except.ok.injEq, Prod.mk.injEq] at h
          obtain ⟨rfl, rfl⟩ := h
          exact ⟨plain, getD_node? tree place⟩
      | cons piece rest =>
          have hrest : ∀ other ∈ rest, '/' ∉ other.toList :=
            fun other hother => slashless other (List.mem_cons_of_mem _ hother)
          rw [follow] at h
          split at h
          case isTrue => exact ih plain hrest h
          case isFalse hidle =>
            split at h
            case isTrue => exact ih (plain_dropLast plain) hrest h
            case isFalse hup =>
              -- Only a name that is neither idle nor a step up is ever added to the place.
              have hpiece : Plain piece := by
                have := slashless piece List.mem_cons_self
                simp only [Bool.or_eq_true, decide_eq_true_eq, not_or] at hidle
                exact ⟨this, by simpa using hidle.1, hidle.2, hup⟩
              split at h
              case isTrue => exact absurd h (by simp)
              case isFalse =>
                cases hnode : tree.node? (place ++ [piece]) with
                | none => simp [hnode] at h
                | some found =>
                    cases found with
                    | directory =>
                        simp only [hnode] at h
                        exact ih (plain_append plain hpiece) hrest h
                    | file content executable =>
                        simp only [hnode] at h
                        split at h
                        · simp only [Except.ok.injEq, Prod.mk.injEq] at h
                          obtain ⟨rfl, rfl⟩ := h
                          refine ⟨plain_append plain hpiece, ?_⟩
                          rw [← getD_node?, hnode]
                          rfl
                        · exact absurd h (by simp)
                    | link target =>
                        simp only [hnode] at h
                        cases links with
                        | zero => exact absurd h (by simp)
                        | succ links =>
                            simp only at h
                            refine ih ?_ ?_ h
                            · split
                              · exact List.forall_mem_nil _
                              · exact plain
                            · intro other hother
                              rcases List.mem_append.mp hother with hother | hother
                              · exact Path.noSlash_of_mem_pieces hother
                              · exact hrest other hother

/-- A path that leads somewhere leads to a place of plain names, and shows what stands there. -/
theorem resolve_spec {tree : FileTree} (plain : ∀ piece ∈ tree.here, Plain piece) {path : Path}
    {place : List String} {node : Node} (h : tree.resolve path = .ok (place, node)) :
    (∀ piece ∈ place, Plain piece) ∧ node = tree.nodeAt place := by
  rw [resolve] at h
  split at h
  · exact absurd h (by simp)
  · refine follow_spec ?_ (fun piece => Path.noSlash_of_mem_pieces) h
    rw [startOf]
    split
    · exact List.forall_mem_nil _
    · exact plain

theorem canonical?_eq_some_iff {tree : FileTree} {path name : Path} :
    tree.canonical? path = some name ↔
      ∃ place node, tree.resolve path = .ok (place, node) ∧ name = ⟨placeText place⟩ := by
  unfold canonical?
  cases h : tree.resolve path with
  | error error => simp
  | ok found =>
      obtain ⟨place, node⟩ := found
      simp [eq_comm]

/-- Trees whose starting place has a plain path behave as a file system does. -/
theorem coherent_view {tree : FileTree} (plain : ∀ piece ∈ tree.here, Plain piece) :
    tree.view.Coherent where
  name_of_read {path content} h := by
    have h : tree.read path = .ok content := h
    rw [read] at h
    change (tree.canonical? path).isSome
    cases hr : tree.resolve path with
    | ok found => simp [canonical?, hr]
    | error error => simp [hr] at h
  name_of_isFile {path} h := by
    have h : tree.isFile path = true := h
    rw [isFile] at h
    change (tree.canonical? path).isSome
    cases hr : tree.resolve path with
    | ok found => simp [canonical?, hr]
    | error error => simp [hr] at h
  read_of_same {p q a b content} ha hb same hread := by
    obtain ⟨place, node, hp, rfl⟩ := canonical?_eq_some_iff.mp ha
    obtain ⟨other, found, hq, rfl⟩ := canonical?_eq_some_iff.mp hb
    obtain ⟨hplace, hnode⟩ := resolve_spec plain hp
    obtain ⟨hother, hfound⟩ := resolve_spec plain hq
    have hnames : place.map Path.Component.name = other.map .name := by
      simpa [Path.same, components_placeText hplace, components_placeText hother] using same
    obtain rfl : place = other :=
      List.map_injective_iff.mpr (fun _ _ => Path.Component.name.inj) hnames
    have hsame : tree.resolve q = tree.resolve p := by rw [hp, hq, hnode, hfound]
    have hread : tree.read p = .ok content := hread
    change tree.read q = .ok content
    rw [read, hsame, ← hread, read]

theorem here_addDirectories (tree : FileTree) (place : List String) :
    (tree.addDirectories place).here = tree.here := by
  unfold addDirectories
  induction List.range (place.length + 1) generalizing tree with
  | nil => rfl
  | cons count counts ih =>
      rw [List.foldl_cons, ih]
      split <;> rfl

theorem here_insert (tree : FileTree) (path : Path) (node : Node) :
    (tree.insert path node).here = tree.here := by
  simp only [insert, here_addDirectories]

theorem coherent_ofTexts (files : List (String × String)) : (ofTexts files).view.Coherent := by
  have here {tree : FileTree} : (files.foldl (fun tree file =>
      tree.insert ⟨file.1⟩ (.file file.2.toUTF8 false)) tree).here = tree.here := by
    induction files generalizing tree with
    | nil => rfl
    | cons file files ih =>
        rw [List.foldl_cons, ih, here_insert]
  refine coherent_view ?_
  rw [ofTexts, here]
  exact List.forall_mem_singleton.mpr ⟨by decide, by decide, by decide, by decide⟩

end FileTree
end LibSurvey
