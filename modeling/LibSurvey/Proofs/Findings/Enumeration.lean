import LibSurvey.Proofs.Constant.Spelled
import LibSurvey.Proofs.Findings

/-!
Enumerations as they are written, and the values that their entries have of their own. However much
of an enumeration is read, its constants have their own values as long as nothing counts on from an
entry that was left out. Which entries a parser leaves out remains a separate obligation.
-/

namespace LibSurvey.Enumeration
open Expression (Extends Tree spelling)

/-- A word after the name of an entry, with the lexemes between parentheses if it has arguments. -/
structure Remark where
  word : String
  arguments : Option (List Lexeme)

/-- An entry of an enumeration: `name annotations = value`. -/
structure Entry where
  name : String
  annotations : List Remark
  value : Option Tree

/-- The value of an expression over what is known, or else the one that comes next. -/
def Entry.own? (known : ConstantSet) (next : Option Int64) (entry : Entry) : Option Int64 :=
  match entry.value with
  | some tree => tree.meaning? known
  | none => next

def bound (constants : ConstantSet) (name : String) (value : Option Int64) : ConstantSet :=
  match value with
  | some value => constants.insert name value
  | none => constants

/-- The entries with their own values, after those that are known; `next` is the value of one
without an expression. -/
def own (known : ConstantSet) (next : Option Int64) : List Entry → ConstantSet
  | [] => known
  | entry :: rest =>
    own (bound known entry.name (entry.own? known next))
      (Findings.successor? (entry.own? known next)) rest

/-- Items that entries are read as. Entries may be left out, but where none `follows` directly on what
was read before, one without an expression must be. -/
inductive Reads : (follows : Bool) → List Entry → List Enumerator → Prop where
  | nil {follows : Bool} : Reads follows [] []
  | counted {entry : Entry} {rest : List Entry} {items : List Enumerator} :
      entry.value = none → Reads true rest items →
      Reads true (entry :: rest) (⟨entry.name, none⟩ :: items)
  | valued {follows : Bool} {entry : Entry} {tree : Tree} {expression : String}
      {rest : List Entry} {items : List Enumerator} :
      entry.value = some tree → tree.Formed →
      Text.Spaced (spelling tree.lexemes) expression.toList → Reads true rest items →
      Reads follows (entry :: rest) (⟨entry.name, some expression⟩ :: items)
  | dropped {follows : Bool} {entry : Entry} {rest : List Entry} {items : List Enumerator} :
      Reads false rest items → Reads follows (entry :: rest) items

theorem getElem?_bound (constants : ConstantSet) (name other : String) (value : Option Int64) :
    (bound constants name value)[other]? =
      if name = other then value.or constants[other]? else constants[other]? := by
  cases value with
  | none => simp [bound]
  | some value => simp [bound, Std.TreeMap.getElem?_insert]

theorem extends_bound {known found : ConstantSet} (h : Extends known found) {name : String}
    (fresh : found[name]? = none) {own value : Option Int64}
    (hvalue : ∀ v, value = some v → own = some v) :
    Extends (bound known name own) (bound found name value) := by
  intro other v hv
  rw [getElem?_bound] at hv ⊢
  split at hv
  case isTrue heq =>
    subst heq
    rw [fresh, Option.or_none] at hv
    rw [if_pos rfl, hvalue v hv, Option.some_or]
  case isFalse hne => rw [if_neg hne, h other v hv]

theorem successor?_of_eq {own value : Option Int64} (h : ∀ v, value = some v → own = some v) :
    ∀ v, Findings.successor? value = some v → Findings.successor? own = some v := by
  intro v hv
  cases value with
  | none => cases hv
  | some u => rwa [h u rfl]

theorem constants_define (findings : Findings) (name : String) (value : Option Int64) :
    (findings.define name value).signatures.constants =
      bound findings.signatures.constants name value := by
  cases value <;> rfl

theorem fresh_define {entry : Entry} {rest : List Entry}
    (distinct : ((entry :: rest).map Entry.name).Nodup) {findings : Findings}
    (fresh : ∀ other ∈ entry :: rest, findings.signatures.constants[other.name]? = none)
    (value : Option Int64) :
    ∀ other ∈ rest, (findings.define entry.name value).signatures.constants[other.name]? = none := by
  intro other hother
  have hne : entry.name ≠ other.name := by
    rw [List.map_cons, List.nodup_cons] at distinct
    exact fun heq => distinct.1 (heq ▸ List.mem_map_of_mem hother)
  rw [constants_define, getElem?_bound, if_neg hne]
  exact fresh other (List.mem_cons_of_mem entry hother)

/-- Each entry is bound to its own value or not at all. -/
theorem extends_enumerate {follows : Bool} {entries : List Entry} {items : List Enumerator}
    (reads : Reads follows entries items) (distinct : (entries.map Entry.name).Nodup)
    {findings : Findings} {known : ConstantSet} {next count : Option Int64}
    (fresh : ∀ entry ∈ entries, findings.signatures.constants[entry.name]? = none)
    (h : Extends known findings.signatures.constants)
    (counts : follows = true → ∀ v, count = some v → next = some v) :
    Extends (own known next entries) (findings.enumerate count items).signatures.constants := by
  induction reads generalizing findings known next count with
  | nil => exact h
  | @counted entry rest items implicit _ ih =>
      have hvalue : ∀ v, count = some v → entry.own? known next = some v := by
        rw [Entry.own?, implicit]
        exact counts rfl
      rw [own, Findings.enumerate]
      exact ih (List.nodup_cons.mp distinct).2 (fresh_define distinct fresh count)
        (by rw [constants_define]; exact extends_bound h (fresh entry List.mem_cons_self) hvalue)
        fun _ => successor?_of_eq hvalue
  | @valued follows entry tree expression rest items explicit formed spelled _ ih =>
      cases hevaluated : findings.evaluate entry.name expression with
      | mk value after =>
          have hok {v : Int64} := Findings.evaluate_fst_eq_some_iff findings entry.name expression v
          have hafter := Findings.evaluate_signatures findings entry.name expression
          rw [hevaluated] at hok hafter
          have hvalue : ∀ v, value = some v → entry.own? known next = some v := by
            intro v hv
            rw [Entry.own?, explicit]
            exact Tree.meaning?_mono formed h
              (Expression.meaning?_of_evaluate formed spelled (hok.mp hv))
          rw [own, Findings.enumerate]
          simp only [hevaluated]
          exact ih (List.nodup_cons.mp distinct).2
            (fresh_define distinct (by rwa [hafter]) value)
            (by rw [constants_define, hafter]
                exact extends_bound h (fresh entry List.mem_cons_self) hvalue)
            fun _ => successor?_of_eq hvalue
  | @dropped follows entry rest items _ ih =>
      have hnone : ∀ v, none = some v → entry.own? known next = some v := by simp
      rw [own]
      exact ih (List.nodup_cons.mp distinct).2 (fresh_define distinct fresh none)
        (extends_bound h (fresh entry List.mem_cons_self) hnone) (by simp)

end LibSurvey.Enumeration
