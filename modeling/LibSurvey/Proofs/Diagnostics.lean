import LibSurvey.Diagnostics

/-!
Sinks over any sequence of calls. An enabled sink holds what was recorded in it and what was added to
it, in the order of the calls. A disabled one drops what is recorded in it, but not what is added to it,
so that it stays empty only if nothing was recorded in any enabled sink on the way into it.
-/

namespace LibSurvey.Diagnostics

theorem record_eq (sink : Diagnostics) (stage : Stage) (message : String) :
    sink.record stage message =
      { sink with entries := sink.entries ++ if sink.enabled then [⟨stage, message⟩] else [] } := by
  unfold record
  split
  · rfl
  · rw [List.append_nil]

theorem foldl_record (stage : Stage) (messages : List String) (sink : Diagnostics) :
    messages.foldl (fun sink message => sink.record stage message) sink =
      { sink with
        entries := sink.entries ++ if sink.enabled then messages.map (Diagnostic.mk stage) else [] } := by
  induction messages generalizing sink with
  | nil => cases sink; simp
  | cons message messages ih =>
      rw [List.foldl_cons, ih, record_eq]
      cases h : sink.enabled with
      | false => simp
      | true => simp

/-- How a sink was used: made empty, then called any number of times. A sink that was added to it was
used in its own way before. -/
inductive Usage where
  | new (enabled : Bool)
  | record (usage : Usage) (stage : Stage) (message : String)
  | extend (usage other : Usage)

namespace Usage

def sink : Usage → Diagnostics
  | new enabled => .empty enabled
  | record usage stage message => usage.sink.record stage message
  | extend usage other => usage.sink.extend other.sink

def enabled : Usage → Bool
  | new enabled => enabled
  | record usage _ _ | extend usage _ => usage.enabled

/-- What the calls on this sink hand over, in their order: a diagnostic that is recorded, or all that
another sink holds. -/
def given : Usage → List Diagnostic
  | new _ => []
  | record usage stage message => usage.given ++ [⟨stage, message⟩]
  | extend usage other => usage.given ++ other.sink.entries

/-- All that was recorded, in this sink or on the way into it, in the order of the calls; each with
whether the sink that it was recorded in is enabled. -/
def recorded : Usage → List (Bool × Diagnostic)
  | new _ => []
  | record usage stage message => usage.recorded ++ [(usage.enabled, ⟨stage, message⟩)]
  | extend usage other => usage.recorded ++ other.recorded

theorem enabled_sink (usage : Usage) : usage.sink.enabled = usage.enabled := by
  induction usage with
  | new _ => rfl
  | record usage stage message ih => rw [sink, record_eq, enabled, ih]
  | extend usage other ih _ => exact ih

theorem entries_sink (usage : Usage) :
    usage.sink.entries = (usage.recorded.filter (·.1)).map (·.2) := by
  induction usage with
  | new _ => rfl
  | record usage stage message ih =>
      rw [sink, record_eq, recorded, List.filter_append, List.map_append, ← ih, enabled_sink]
      cases usage.enabled <;> rfl
  | extend usage other ih ihother =>
      rw [recorded, List.filter_append, List.map_append, ← ih, ← ihother]
      rfl

theorem entries_enabled {usage : Usage} (h : usage.enabled = true) :
    usage.sink.entries = usage.given := by
  induction usage with
  | new _ => rfl
  | record usage stage message ih =>
      have husage : usage.enabled = true := h
      rw [sink, record_eq, given, enabled_sink, husage, ih husage]
      rfl
  | extend usage other ih _ =>
      rw [given, ← ih h]
      rfl

/-- A sink holds what was recorded in an enabled sink, itself or one on the way into it, each of these
once and in the order of the calls. So an enabled sink holds what its calls handed over, and a disabled
one is empty if and only if nothing was recorded in an enabled sink on the way into it. -/
theorem entries_recorded (usage : Usage) :
    usage.sink.entries = (usage.recorded.filter (·.1)).map (·.2) ∧
    (usage.enabled = true → usage.sink.entries = usage.given) ∧
    (usage.enabled = false →
      (usage.sink.entries = [] ↔ ∀ entry ∈ usage.recorded, entry.1 = false)) := by
  refine ⟨entries_sink usage, entries_enabled, fun _ => ?_⟩
  rw [entries_sink, List.map_eq_nil_iff, List.filter_eq_nil_iff]
  simp only [Bool.not_eq_true]

/-- A disabled sink keeps what an enabled one brings. -/
theorem extended_disabled :
    ∃ usage : Usage, usage.enabled = false ∧ usage.sink.entries ≠ [] :=
  ⟨.extend (.new false) (.record (.new true) .parse "unbalanced braces"), rfl, by decide⟩

end Usage
end LibSurvey.Diagnostics
