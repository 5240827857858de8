import LibSurvey.Dwarf.Entry

/-!
How much reading takes of its stretch. No reader gives back what is read, and an entry takes a byte at
least, so the number of bytes bounds the number of entries. What the bytes mean remains a separate
obligation.
-/

namespace LibSurvey.Dwarf

/-- So many bytes at least are gone after reading. -/
def Takes {α : Type} (least : Nat) (read : Read α) : Prop :=
  ∀ before a after, read.run before = .ok (a, after) → after.size + least ≤ before.size

namespace Takes

variable {α β : Type} {m n : Nat} {read : Read α} {more : α → Read β}

theorem mono (h : Takes n read) (hm : m ≤ n) : Takes m read := fun before a after hread =>
  Nat.le_trans (Nat.add_le_add_left hm _) (h before a after hread)

theorem pure (a : α) : Takes 0 (Pure.pure a : Read α) := by
  intro before b after h
  cases h
  exact Nat.le_refl _

theorem throw (fault : Fault) (n : Nat) : Takes n (MonadExcept.throw fault : Read α) := by
  intro before b after h
  cases h

theorem bind (h : Takes m read) (hmore : ∀ a, Takes n (more a)) : Takes (m + n) (read >>= more) := by
  intro before b after hread
  rw [StateT.run_bind] at hread
  cases hfirst : read.run before with
  | error fault =>
      rw [hfirst] at hread
      cases hread
  | ok result =>
      rw [hfirst] at hread
      have hm := h before result.1 result.2 hfirst
      have hn := hmore result.1 result.2 b after hread
      omega

/-- What follows need not take anything. -/
theorem andThen (h : Takes n read) (hmore : ∀ a, Takes 0 (more a)) : Takes n (read >>= more) :=
  h.bind hmore

/-- What comes first need not take anything. -/
theorem before (h : Takes 0 read) (hmore : ∀ a, Takes n (more a)) : Takes n (read >>= more) :=
  Nat.zero_add n ▸ h.bind hmore

theorem andPure (h : Takes n read) (f : α → β) : Takes 0 (read >>= fun a => Pure.pure (f a)) :=
  (h.andThen fun a => pure (f a)).mono (Nat.zero_le n)

end Takes

theorem Reader.size_skip? {reader after : Reader} {count : Nat} (h : reader.skip? count = .ok after) :
    after.size + count ≤ reader.size := by
  unfold skip? at h
  split at h
  next hcount =>
      cases h
      simp only [size] at hcount ⊢
      omega
  · cases h

theorem takes_get : Takes 0 (get : Read Reader) := by
  intro before a after h
  cases h
  exact Nat.le_refl _

/-- A reader that makes something of the bytes that it skips. -/
theorem takes_of_skip? {α : Type} {read : Read α} {count : Nat} (value : Reader → α)
    (h : ∀ before, read.run before = (fun after => (value before, after)) <$> before.skip? count) :
    Takes count read := by
  intro before a after hread
  rw [h] at hread
  cases hskip : before.skip? count with
  | error fault =>
      rw [hskip] at hread
      cases hread
  | ok rest =>
      rw [hskip] at hread
      cases hread
      exact Reader.size_skip? hskip

theorem takes_skip (count : Nat) : Takes count (Read.skip count) :=
  takes_of_skip? (fun _ => ()) fun before => by simp [Read.skip]

theorem takes_uint (size : Nat) : Takes size (Read.uint size) :=
  takes_of_skip? (fun before => Bytes.uint before.bytes before.endian before.next size)
    fun before => by simp [Read.uint]

theorem Takes.ite {α : Type} {n : Nat} {p : Prop} [Decidable p] {first second : Read α}
    (hfirst : Takes n first) (hsecond : Takes n second) : Takes n (if p then first else second) := by
  split
  · exact hfirst
  · exact hsecond

theorem takes_ulebFrom (left value shift : Nat) : Takes 1 (Read.ulebFrom left value shift) := by
  induction left generalizing value shift with
  | zero => exact .throw _ 1
  | succ left ih =>
      rw [Read.ulebFrom]
      refine (takes_uint 1).andThen fun byte => .ite ?_ ?_
      · exact (Takes.throw _ 0).andThen fun _ => .ite (.pure _) ((ih _ _).mono (Nat.zero_le 1))
      · exact .ite (.pure _) ((ih _ _).mono (Nat.zero_le 1))

theorem takes_uleb : Takes 1 Read.uleb :=
  takes_ulebFrom 10 0 0

theorem takes_uleb16 : Takes 1 Read.uleb16 := by
  rw [Read.uleb16]
  refine (takes_uint 1).andThen fun first => .ite (.pure _) ?_
  refine ((takes_uint 1).andThen fun second => .ite (.pure _) ?_).mono (Nat.zero_le 1)
  refine ((takes_uint 1).andThen fun third => .ite ?_ (.pure _)).mono (Nat.zero_le 1)
  exact (Takes.throw _ 0).andThen fun _ => .pure _

theorem takes_skipSlebFrom (left shift : Nat) : Takes 0 (Read.skipSlebFrom left shift) := by
  induction left generalizing shift with
  | zero => exact .throw _ 0
  | succ left ih =>
      rw [Read.skipSlebFrom]
      refine ((takes_uint 1).andThen fun byte => .ite ?_ ?_).mono (Nat.zero_le 1)
      · exact (Takes.throw _ 0).andThen fun _ => .ite (ih _) (.pure _)
      · exact .ite (ih _) (.pure _)

theorem Reader.le_of_findZero {bytes : ByteArray} {count place found : Nat}
    (h : findZero bytes count place = some found) : place ≤ found := by
  induction count generalizing place with
  | zero => cases h
  | succ count ih =>
      rw [findZero] at h
      split at h
      · exact Nat.le_of_eq (Option.some.inj h)
      · exact Nat.le_of_succ_le (ih h)

theorem takes_zeroTerminated : Takes 0 Read.zeroTerminated := by
  intro before a after h
  simp only [Read.zeroTerminated, StateT.run_bind, StateT.run_get, pure_bind] at h
  split at h
  next place hzero =>
      have hplace := Reader.le_of_findZero hzero
      cases h
      simp only [Reader.size]
      omega
  · cases h

theorem takes_offset (wide : Bool) : Takes 0 (Read.offset wide) :=
  (takes_uint _).mono (Nat.zero_le _)

theorem takes_skipSleb : Takes 0 Read.skipSleb :=
  takes_skipSlebFrom 10 0

theorem takes_skipBlock (size : Nat) : Takes 0 (Read.skipBlock size) :=
  ((takes_uint size).andThen fun count => (takes_skip count).mono (Nat.zero_le count)).mono
    (Nat.zero_le size)

/-- A number, and then as many bytes as it says. -/
theorem takes_counted : Takes 0 (do Read.skip (← Read.uleb); pure Value.other) :=
  (takes_uleb.andThen fun count => (takes_skip count).andPure fun _ => Value.other).mono
    (Nat.zero_le 1)

theorem takes_passing {n : Nat} {skipped : Read Unit} (h : Takes n skipped) :
    Takes 0 (Value.passing skipped) :=
  h.andPure fun _ => Value.other

theorem takes_readForm (encoding : Encoding) (form : Nat) :
    Takes 0 (Value.readForm encoding form) := by
  unfold Value.readForm
  split
  -- A form is a number, a text, a stretch that is passed, or nothing at all.
  all_goals first
    | with_reducible exact .pure _
    | with_reducible exact .throw _ 0
    | with_reducible exact (takes_uint _).andPure _
    | with_reducible exact takes_uleb.andPure _
    | with_reducible exact (takes_offset _).andPure _
    | with_reducible exact takes_zeroTerminated.andPure _
    | with_reducible exact (takes_skip _).andPure fun _ => _
    | with_reducible exact takes_passing (takes_skip _)
    | with_reducible exact takes_passing (takes_skipBlock _)
    | with_reducible exact takes_passing takes_skipSleb
    | with_reducible exact takes_counted
    | exact .ite ((takes_uint _).andPure _) ((takes_offset _).andPure _)

theorem takes_readIndirect (encoding : Encoding) (left : Nat) :
    Takes 0 (Value.readIndirect encoding left) := by
  induction left with
  | zero => exact .throw _ 0
  | succ left ih =>
      rw [Value.readIndirect]
      refine (takes_uleb16.andThen fun form => .ite ih (.ite ?_ ?_)).mono (Nat.zero_le 1)
      · exact .throw _ 0
      · exact takes_readForm encoding form

theorem takes_read (encoding : Encoding) (form : Nat) : Takes 0 (Value.read encoding form) := by
  rw [Value.read]
  exact .ite (takes_get.andThen fun reader => takes_readIndirect encoding _)
    (takes_readForm encoding form)

theorem takes_readAttributes (encoding : Encoding) (specs : List AttributeSpec) :
    Takes 0 (Entry.readAttributes encoding specs) := by
  induction specs with
  | nil => exact .pure _
  | cons spec specs ih =>
      rw [Entry.readAttributes]
      exact (takes_read encoding spec.form).andThen fun value => ih.andPure _

theorem takes_readEntry (header : UnitHeader) (abbreviations : Abbreviations) :
    Takes 1 (Entry.read? header abbreviations) := by
  rw [Entry.read?]
  refine takes_get.before fun reader => takes_uleb.andThen fun code => ?_
  refine .ite (.pure _) ?_
  split
  · exact takes_get.andPure _
  · exact .throw _ 0

end LibSurvey.Dwarf
