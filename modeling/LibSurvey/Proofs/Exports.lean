import LibSurvey.Proofs.Distinct
import LibSurvey.Proofs.Survey.Cancelled

/-!
The functions that an object exports. They are listed once each by the names that the chosen table of
symbols gives them, in the order of the table, and are the same for a reader of the object alone and in a
survey that has taken the object over. That a table is read correctly from its bytes remains a separate
obligation.
-/

namespace LibSurvey

namespace Object

/-- The name that an entry of a table stands for: one underscore less where the format puts one before
every name. -/
inductive StandsFor : Bool → String → String → Prop where
  | plain (name : String) : StandsFor false name name
  | underscored (name : String) : StandsFor true ("_" ++ name) name
  | bare {name : String} : (∀ rest, name ≠ "_" ++ rest) → StandsFor true name name

/-- A symbol is a function that its object defines for others, under this name. -/
structure Symbol.Gives (underscored : Bool) (symbol : Symbol) (name : String) : Prop where
  isFunction : symbol.isFunction = true
  isDefined : symbol.isDefined = true
  notLocal : symbol.isLocal = false
  named : ∃ raw, symbol.name = some raw ∧ StandsFor underscored raw name
  nonempty : name ≠ ""

theorem toList_underscore (name : String) : ("_" ++ name).toList = '_' :: name.toList := by
  rw [String.toList_append]
  rfl

theorem sourceName_underscore (name : String) : sourceName true ("_" ++ name) = name := by
  rw [sourceName, if_pos rfl, toList_underscore]
  exact String.ofList_toList

theorem sourceName_bare {name : String} (h : ∀ rest, name ≠ "_" ++ rest) :
    sourceName true name = name := by
  rw [sourceName, if_pos rfl]
  split
  next rest hrest =>
      refine absurd ?_ (h (String.ofList rest))
      rw [← String.toList_inj, toList_underscore, hrest, String.toList_ofList]
  · rfl

theorem sourceName_eq_iff {underscored : Bool} {raw name : String} :
    sourceName underscored raw = name ↔ StandsFor underscored raw name := by
  constructor
  · rintro rfl
    cases underscored with
    | false => exact .plain raw
    | true =>
        by_cases h : ∃ rest, raw = "_" ++ rest
        · obtain ⟨rest, rfl⟩ := h
          rw [sourceName_underscore]
          exact .underscored rest
        · have hbare : ∀ rest, raw ≠ "_" ++ rest := fun rest heq => h ⟨rest, heq⟩
          rw [sourceName_bare hbare]
          exact .bare hbare
  · intro h
    cases h with
    | plain => rfl
    | underscored => exact sourceName_underscore name
    | bare h => exact sourceName_bare h

theorem Symbol.exportedName?_eq_some_iff {underscored : Bool} {symbol : Symbol} {name : String} :
    symbol.exportedName? underscored = some name ↔ symbol.Gives underscored name := by
  obtain ⟨found, isFunction, isDefined, isLocal⟩ := symbol
  unfold exportedName?
  constructor
  · intro h
    split at h
    next hkind =>
        simp only [Bool.and_eq_true, Bool.not_eq_true'] at hkind
        obtain ⟨⟨hfunction, hdefined⟩, hlocal⟩ := hkind
        cases found with
        | none => cases h
        | some raw =>
            rw [Option.map_some] at h
            obtain ⟨hnonempty, hname⟩ : ¬sourceName underscored raw = "" ∧
                sourceName underscored raw = name := by simpa using h
            exact ⟨hfunction, hdefined, hlocal, ⟨raw, rfl, sourceName_eq_iff.mp hname⟩,
              hname ▸ hnonempty⟩
    · cases h
  · rintro ⟨hfunction, hdefined, hlocal, ⟨raw, hraw, hname⟩, hnonempty⟩
    obtain rfl : found = some raw := hraw
    have hsource := sourceName_eq_iff.mpr hname
    have hempty : name.isEmpty = false := by simpa using hnonempty
    simp only at hfunction hdefined hlocal
    simp [hfunction, hdefined, hlocal, hsource, hnonempty]

namespace File

variable {file : File} {name : String}

theorem raw_exports (file : File) : file.exports.map Export.raw = file.exportNames := by
  simp [exports, Function.comp_def, Export.ofName]

theorem firsts_exportNames (file : File) :
    Firsts id (file.exportTable.filterMap (Symbol.exportedName? file.underscored))
      file.exportNames :=
  Text.firsts_distinct _

theorem mem_exportNames_iff :
    name ∈ file.exportNames ↔ ∃ symbol ∈ file.exportTable, symbol.Gives file.underscored name := by
  have hmem : name ∈ file.exportNames ↔
      name ∈ file.exportTable.filterMap (Symbol.exportedName? file.underscored) := by
    constructor
    · exact fun h => file.firsts_exportNames.mem h
    · intro h
      obtain ⟨found, hfound, hkey⟩ := file.firsts_exportNames.exists_same h
      obtain rfl : found = name := hkey
      exact hfound
  rw [hmem, List.mem_filterMap]
  simp only [Symbol.exportedName?_eq_some_iff]

theorem ordered_exportNames (file : File) :
    file.exportNames.Pairwise fun a b => Precedes file.exportTable
      (Symbol.Gives file.underscored · a) (Symbol.Gives file.underscored · b) := by
  refine file.firsts_exportNames.ordered.imp fun {a b} h => ?_
  have hgives := h.of_filterMap
  simp only [Symbol.exportedName?_eq_some_iff] at hgives
  simpa using hgives

theorem nodup_exportNames (file : File) : file.exportNames.Nodup := by
  refine file.ordered_exportNames.imp ?_
  rintro a b ⟨front, -, ⟨symbol, hsymbol, gives⟩, free⟩ rfl
  exact free symbol hsymbol gives

end File
end Object

/-- A function is listed, and as one that the object exports. -/
def FoundFunctions.Exported (functions : FoundFunctions) (name : String) : Prop :=
  ∃ found, functions[name]? = some found ∧ found.exported = true

theorem FoundFunctions.exported_iff {functions : FoundFunctions} {name : String} :
    functions.Exported name ↔ functions[name]?.any (·.exported) = true := by
  simp [FoundFunctions.Exported, Option.any_eq_true]

namespace Merge

variable {precedence : Precedence} {known : FoundFunctions}

theorem Declared.not_exported (declared : Declared known) (name : String) :
    ¬FoundFunctions.Exported known name := by
  rintro ⟨found, hfound, hexported⟩
  obtain ⟨header, rfl⟩ := declared name found hfound
  exact Bool.false_ne_true hexported

/-- Debug information never tells whether a function is exported. -/
theorem exported_afterDebug (before : Option FoundFunction) (debug : Option Signature) :
    ((afterDebug precedence before debug).any (·.exported)) = before.any (·.exported) := by
  cases debug with
  | none => rfl
  | some signature =>
      cases before with
      | none => rfl
      | some found => cases precedence <;> rfl

theorem exported_afterExports (before : Option FoundFunction) (listed : Prop) [Decidable listed] :
    ((afterExports before listed).any (·.exported)) = (before.any (·.exported) || decide listed) := by
  by_cases h : listed
  · cases before <;> simp [afterExports, h, FoundFunction.symbolOnly]
  · simp [afterExports, h]

/-- A merge marks what the object exports and keeps what was marked before. -/
theorem exported_functions_iff {binary : BinarySignatures} {sink : Diagnostics} {name : String} :
    FoundFunctions.Exported (functions precedence known binary sink).1 name ↔
      FoundFunctions.Exported known name ∨ name ∈ binary.exports.map Export.raw := by
  rw [FoundFunctions.exported_iff, FoundFunctions.exported_iff, functions_getElem?,
    exported_afterExports, exported_afterDebug]
  simp

end Merge

/-- What was found by stages that were not cancelled was found by all of them. -/
theorem Progress.andThen_eq_of_going {progress : Progress} {next : Progress → Progress}
    (going : (progress.andThen next).found.cancelled = false) :
    progress.andThen next = next progress := by
  unfold andThen at going ⊢
  split at going
  next hcancelled => exact absurd (going.symm.trans hcancelled) Bool.false_ne_true
  next hgoing => rw [if_neg hgoing]

namespace Surveyor

variable {surveyor : Surveyor} {progress : Progress} {object : Path} {file : Object.File}

/-- The surveys that read an object, with headers before it or alone. -/
inductive Reads (surveyor : Surveyor) (object : Path) : Survey → Prop where
  | discover (library : String) : Reads surveyor object (surveyor.discover library (some object))
  | inspect : Reads surveyor object (surveyor.inspectObject object)

theorem exported_binaryStages (headers : progress.found.HeadersOnly)
    (opened : Object.open? surveyor.files object = .ok file)
    (going : (surveyor.binaryStages object progress).found.cancelled = false) (name : String) :
    (surveyor.binaryStages object progress).found.functions.Exported name ↔
      name ∈ file.exports.map Export.raw := by
  have looked := Progress.andThen_eq_of_going going
  rw [binaryStages, looked, surveyor.readObject_opened opened]
  rw [binaryStages, looked, surveyor.readObject_opened opened] at going
  rw [Progress.andThen_eq_of_going going]
  exact Merge.exported_functions_iff.trans (or_iff_right (headers.declared.not_exported name))

theorem inspectObject_undisturbed (surveyor : Surveyor) (object : Path) :
    (surveyor.undisturbed.inspectObject object).cancelled = false := by
  rw [inspectObject, Progress.finish_cancelled]
  exact surveyor.binaryStages_undisturbed rfl object

theorem Reads.exported {survey : Survey} (reads : surveyor.Reads object survey)
    (opened : Object.open? surveyor.files object = .ok file) (going : survey.cancelled = false)
    (name : String) :
    survey.functions.Exported name ↔ name ∈ file.exports.map Export.raw := by
  cases reads with
  | discover library =>
      have headers : (surveyor.headerStages library (surveyor.start library)).found.HeadersOnly :=
        headersOnly_headerStages surveyor (Survey.headersOnly_start library) library
      rw [discover_object] at going ⊢
      have read := Progress.andThen_eq_of_going going
      rw [Progress.finish, read] at going ⊢
      exact exported_binaryStages headers opened going name
  | inspect => exact exported_binaryStages (Survey.headersOnly_start _) opened going name

end Surveyor

theorem BinarySignatures.isExported_iff {binary : BinarySignatures} {name : String} :
    binary.isExported name = true ↔ name ∈ binary.exports.map Export.raw := by
  simp [isExported]

namespace Object

/-- An underscore that the format puts before a name makes no other name. -/
theorem Symbol.gives_underscore_iff {symbol : Symbol} {raw name : String}
    (bare : ∀ rest, raw ≠ "_" ++ rest) :
    Symbol.Gives true { symbol with name := some ("_" ++ raw) } name ↔
      Symbol.Gives true { symbol with name := some raw } name := by
  have htwins : Symbol.exportedName? true { symbol with name := some ("_" ++ raw) } =
      Symbol.exportedName? true { symbol with name := some raw } := by
    simp only [exportedName?, Option.map_some, sourceName_underscore, sourceName_bare bare]
  rw [← exportedName?_eq_some_iff, htwins, exportedName?_eq_some_iff]

/-- Every object lists the functions that its chosen table gives, once each in the order of the
table; a survey that was not cancelled marks these as exported and no others. -/
theorem File.exports_listed (file : File) :
    (∀ name ∈ file.exports.map Export.raw, name ≠ "") ∧
    (file.exports.map Export.raw).Nodup ∧
    (∀ name, name ∈ file.exports.map Export.raw ↔
      ∃ symbol ∈ file.dynamic.getD file.symbols, symbol.Gives file.underscored name) ∧
    (file.exports.map Export.raw).Pairwise (fun a b =>
      Precedes (file.dynamic.getD file.symbols) (Symbol.Gives file.underscored · a)
        (Symbol.Gives file.underscored · b)) ∧
    (∀ (symbol : Symbol) (raw : String), (∀ rest, raw ≠ "_" ++ rest) →
      ∀ name, Symbol.Gives true { symbol with name := some ("_" ++ raw) } name ↔
        Symbol.Gives true { symbol with name := some raw } name) ∧
    (∀ path sink name, (BinarySignatures.ofFile path file sink).1.isExported name = true ↔
      name ∈ file.exports.map Export.raw) ∧
    (∀ path sink precedence known merging name,
      FoundFunctions.Exported (Merge.functions precedence known
          (BinarySignatures.ofFile path file sink).1 merging).1 name ↔
        known.Exported name ∨ name ∈ file.exports.map Export.raw) ∧
    ∀ (surveyor : Surveyor) (object : Path) (survey : Survey),
      open? surveyor.files object = .ok file → surveyor.Reads object survey →
        survey.cancelled = false →
          ∀ name, survey.functions.Exported name ↔ name ∈ file.exports.map Export.raw := by
  have hmem : ∀ name, name ∈ file.exports.map Export.raw ↔
      ∃ symbol ∈ file.exportTable, symbol.Gives file.underscored name := by
    intro name
    rw [file.raw_exports]
    exact mem_exportNames_iff
  refine ⟨?_, ?_, hmem, ?_, ?_, ?_, ?_, ?_⟩
  · intro name listed
    obtain ⟨symbol, -, gives⟩ := (hmem name).mp listed
    exact gives.nonempty
  · rw [file.raw_exports]
    exact file.nodup_exportNames
  · rw [file.raw_exports]
    exact file.ordered_exportNames
  · exact fun symbol raw bare name => Symbol.gives_underscore_iff bare
  · exact fun path sink name => BinarySignatures.isExported_iff
  · exact fun path sink precedence known merging name => Merge.exported_functions_iff
  · exact fun surveyor object survey opened reads going name => reads.exported opened going name

/-- A small image with two functions, whose names differ only by an underscore. -/
def twins : ByteArray :=
  let word (n : UInt8) : List UInt8 := [n, 0, 0, 0]
  let zeros (count : Nat) : List UInt8 := List.replicate count 0
  let header := [0xce, 0xfa, 0xed, 0xfe] ++ word 7 ++ zeros 4 ++ word 1 ++ word 2 ++ word 148 ++ zeros 4
  let segment := word 1 ++ word 124 ++ zeros 40 ++ word 1 ++ zeros 4
  let text := [0x5f, 0x5f, 0x74, 0x65, 0x78, 0x74] ++ zeros 10 ++
    [0x5f, 0x5f, 0x54, 0x45, 0x58, 0x54] ++ zeros 10 ++ zeros 36
  let table := word 2 ++ word 24 ++ word 176 ++ word 2 ++ word 200 ++ word 6
  let symbol (name : UInt8) := word name ++ [0x0f, 1, 0, 0] ++ zeros 4
  let strings := [0, 0x5f, 0x66, 0, 0x66, 0]
  ⟨(header ++ segment ++ text ++ table ++ symbol 1 ++ symbol 4 ++ strings).toArray⟩

/-- Reads nothing but one object. -/
def twinsReader : Surveyor where
  config := .default
  files := ⟨fun _ => none, fun _ => true, fun _ => .ok twins⟩
  tools := fun _ => .missing ""
  cancellation := .never

theorem File.exports_listed_twins :
    ∃ file, open? twinsReader.files ⟨"f.o"⟩ = .ok file ∧ file.exports.map Export.raw = ["f"] ∧
      (twinsReader.inspectObject ⟨"f.o"⟩).functions.Exported "f" ∧
      ¬(twinsReader.inspectObject ⟨"f.o"⟩).functions.Exported "_f" := by
  have hread : (open? twinsReader.files ⟨"f.o"⟩).toOption.map
      (fun file => file.exports.map Export.raw) = some ["f"] := by decide +kernel
  cases hopen : open? twinsReader.files ⟨"f.o"⟩ with
  | error failure => simp [hopen, Except.toOption] at hread
  | ok file =>
      have hraw : file.exports.map Export.raw = ["f"] := by simpa [hopen, Except.toOption] using hread
      have never : twinsReader.undisturbed = twinsReader := rfl
      have going := never ▸ twinsReader.inspectObject_undisturbed ⟨"f.o"⟩
      have exported := file.exports_listed.2.2.2.2.2.2.2 twinsReader ⟨"f.o"⟩ _ hopen .inspect going
      refine ⟨file, rfl, hraw, (exported "f").mpr ?_, fun h => ?_⟩
      · rw [hraw]
        exact List.mem_singleton_self "f"
      · have listed := (exported "_f").mp h
        rw [hraw] at listed
        exact absurd listed (by decide)

end Object
end LibSurvey
