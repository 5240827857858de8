import LibSurvey.Proofs.DebugInfo.Chain

/-!
What resolving remembers. A category found after any references is the end of its chain or unknown. It
is the one found with nothing known wherever the limit is enough for every chain; a chain that is longer
is cut when its head is resolved, and leaves all entries on the way unknown, also those from which the
end is near. What follows for the functions read on the way remains a separate obligation.
-/

namespace LibSurvey.DebugInfo

namespace TypeGraph

variable {graph : TypeGraph} {unit n left : Nat} {reference inner : TypeReference}
  {node : TypeNode} {category : TypeCategory} {known : KnownTypes}

/-- What is known after references in order, each with the unit in which it stands. -/
def remembered (graph : TypeGraph) (queries : List (Nat × TypeReference)) : KnownTypes :=
  queries.foldl (fun known query => (graph.resolve known query.1 query.2).2) ∅

theorem remembered_induction {P : KnownTypes → Prop} (empty : P ∅)
    (step : ∀ known unit reference, P known → P (graph.resolve known unit reference).2)
    (queries : List (Nat × TypeReference)) : P (graph.remembered queries) := by
  have run (known : KnownTypes) (h : P known) :
      P (queries.foldl (fun known query => (graph.resolve known query.1 query.2).2) known) := by
    induction queries generalizing known with
    | nil => exact h
    | cons query queries ih => exact ih _ (step known query.1 query.2 h)
  exact run ∅ empty

/-- The ways in which a reference can be resolved, as the steps of an induction. -/
theorem resolveWithin_induction
    {P : Nat → KnownTypes → Nat → TypeReference → TypeCategory × KnownTypes → Prop}
    (cut : ∀ known unit reference, P 0 known unit reference (.unknown, known))
    (lost : ∀ left known unit reference, (∀ node, ¬graph.Refers unit reference node) →
      P (left + 1) known unit reference (.unknown, known))
    (found : ∀ left known unit reference node category, graph.Refers unit reference node →
      known.find? node = some category → P (left + 1) known unit reference (category, known))
    (final : ∀ left known unit reference node category, graph.Refers unit reference node →
      Final (graph.entry? node) category →
      P (left + 1) known unit reference (category, known.remember node category))
    (next : ∀ left known unit reference node inner result, graph.Refers unit reference node →
      graph.entry? node = some (.wrapper (some inner)) → P left known node.1 inner result →
      P (left + 1) known unit reference (result.1, result.2.remember node result.1))
    (left : Nat) (known : KnownTypes) (unit : Nat) (reference : TypeReference) :
    P left known unit reference (graph.resolveWithin left known unit reference) := by
  induction left generalizing known unit reference with
  | zero => exact cut known unit reference
  | succ left ih =>
      cases htarget : graph.target? unit reference with
      | none =>
          have hlost := target?_eq_none_iff.mp htarget
          rw [resolveWithin_lost hlost]
          exact lost left known unit reference hlost
      | some node =>
          have refers := target?_eq_some_iff.mp htarget
          cases hknown : known.find? node with
          | some category =>
              rw [resolveWithin_known refers hknown]
              exact found left known unit reference node category refers hknown
          | none =>
              rcases Final.exists_or_wrapper (graph.entry? node) with
                ⟨category, hfinal⟩ | ⟨inner, hentry⟩
              · rw [resolveWithin_final refers hknown hfinal]
                exact final left known unit reference node category refers hfinal
              · rw [resolveWithin_next refers hknown hentry]
                exact next left known unit reference node inner _ refers hentry
                  (ih known node.1 inner)

theorem refers_unique {other : TypeNode} (h : graph.Refers unit reference node)
    (h' : graph.Refers unit reference other) : node = other := by
  rw [← target?_eq_some_iff] at h h'
  exact Option.some.inj (h.symm.trans h')

/-- A chain is the chain of its first entry. -/
theorem ends_node_iff (refers : graph.Refers unit reference node) :
    graph.Ends node.1 (.inUnit node.2) n category ↔ graph.Ends unit reference n category := by
  have self : graph.Refers node.1 (.inUnit node.2) node := rfl
  constructor
  · intro ends
    cases ends with
    | lost h => exact absurd self (h node)
    | final h final => exact .final (refers_unique h self ▸ refers) final
    | next h entry ends => exact .next (refers_unique h self ▸ refers) entry ends
  · intro ends
    cases ends with
    | lost h => exact absurd refers (h node)
    | final h final => exact .final (refers_unique h refers ▸ self) final
    | next h entry ends => exact .next (refers_unique h refers ▸ self) entry ends

theorem resolve_node (refers : graph.Refers unit reference node) :
    graph.resolve known node.1 (.inUnit node.2) = graph.resolve known unit reference := by
  have self : graph.target? node.1 (.inUnit node.2) = some node := rfl
  rw [resolve, resolve, maxChain, resolveWithin, resolveWithin, self,
    target?_eq_some_iff.mpr refers]

/-- A category of a reference that is not wrong. -/
def Sound (graph : TypeGraph) (unit : Nat) (reference : TypeReference) (category : TypeCategory) :
    Prop :=
  category = .unknown ∨ ∃ n, graph.Ends unit reference n category

/-- Nothing wrong is known. -/
def Truthful (graph : TypeGraph) (known : KnownTypes) : Prop :=
  ∀ node category, known.find? node = some category →
    graph.Sound node.1 (.inUnit node.2) category

theorem Truthful.remember (truthful : graph.Truthful known)
    (sound : graph.Sound node.1 (.inUnit node.2) category) :
    graph.Truthful (known.remember node category) := by
  intro other remembered h
  rw [KnownTypes.find?_remember] at h
  split at h
  · subst other
    exact Option.some.inj h ▸ sound
  · exact truthful other remembered h

theorem sound_node_iff (refers : graph.Refers unit reference node) :
    graph.Sound node.1 (.inUnit node.2) category ↔ graph.Sound unit reference category := by
  simp only [Sound, ends_node_iff refers]

theorem Truthful.resolveWithin (truthful : graph.Truthful known) :
    graph.Sound unit reference (graph.resolveWithin left known unit reference).1 ∧
      graph.Truthful (graph.resolveWithin left known unit reference).2 := by
  revert truthful
  refine resolveWithin_induction (P := fun _ known unit reference result =>
    graph.Truthful known → graph.Sound unit reference result.1 ∧ graph.Truthful result.2)
    ?_ ?_ ?_ ?_ ?_ left known unit reference
  · intro known unit reference truthful
    exact ⟨.inl rfl, truthful⟩
  · intro left known unit reference _ truthful
    exact ⟨.inl rfl, truthful⟩
  · intro left known unit reference node category refers hknown truthful
    exact ⟨(sound_node_iff refers).mp (truthful node category hknown), truthful⟩
  · intro left known unit reference node category refers final truthful
    have sound : graph.Sound unit reference category := .inr ⟨1, .final refers final⟩
    exact ⟨sound, truthful.remember ((sound_node_iff refers).mpr sound)⟩
  · intro left known unit reference node inner result refers entry ih truthful
    obtain ⟨hsound, htruthful⟩ := ih truthful
    have sound : graph.Sound unit reference result.1 :=
      hsound.imp_right fun ⟨n, ends⟩ => ⟨n + 1, .next refers entry ends⟩
    exact ⟨sound, htruthful.remember ((sound_node_iff refers).mpr sound)⟩

theorem truthful_remembered (graph : TypeGraph) (queries : List (Nat × TypeReference)) :
    graph.Truthful (graph.remembered queries) :=
  remembered_induction (fun node category h => absurd h (by simp [find?_empty]))
    (fun _ _ _ truthful => truthful.resolveWithin.2) queries

/-- So many entries are enough to come to the end of a chain, unless that is unknown anyway. -/
def Suffices (graph : TypeGraph) (limit unit : Nat) (reference : TypeReference) : Prop :=
  ∀ n category, graph.Ends unit reference n category → category ≠ .unknown → n ≤ limit

theorem Suffices.next (enough : graph.Suffices (left + 1) unit reference)
    (refers : graph.Refers unit reference node)
    (entry : graph.entry? node = some (.wrapper (some inner))) :
    graph.Suffices left node.1 inner := by
  intro n category ends known
  exact Nat.le_of_succ_le_succ (enough (n + 1) category (.next refers entry ends) known)

/-- With nothing known, fewer entries find the same if they are enough. -/
theorem Suffices.resolveWithin (enough : graph.Suffices left unit reference) (h : left ≤ maxChain) :
    (graph.resolveWithin left ∅ unit reference).1 = (graph.resolve ∅ unit reference).1 := by
  rw [resolve]
  rcases ends_or_passes graph maxChain unit reference with ⟨n, hn, category, ends⟩ | passes
  · rw [resolveWithin_empty_of_ends ends, resolveWithin_empty_of_ends ends, if_pos hn]
    by_cases hunknown : category = .unknown
    · simp [hunknown]
    · rw [if_pos (enough n category ends hunknown)]
  · rw [resolveWithin_empty_of_passes passes h,
      resolveWithin_empty_of_passes passes (Nat.le_refl maxChain)]

/-- What is known is what would be found with nothing known. -/
def Current (graph : TypeGraph) (known : KnownTypes) : Prop :=
  ∀ node category, known.find? node = some category →
    (graph.resolve ∅ node.1 (.inUnit node.2)).1 = category

theorem Current.remember (current : graph.Current known)
    (h : (graph.resolve ∅ node.1 (.inUnit node.2)).1 = category) :
    graph.Current (known.remember node category) := by
  intro other remembered hother
  rw [KnownTypes.find?_remember] at hother
  split at hother
  · subst other
    exact h.trans (Option.some.inj hother)
  · exact current other remembered hother

/-- Where the limit is enough for every chain, what is known makes no difference and stays current. -/
theorem Current.resolveWithin (short : ∀ unit reference, graph.Suffices maxChain unit reference)
    (current : graph.Current known) (enough : graph.Suffices left unit reference)
    (h : left ≤ maxChain) :
    (graph.resolveWithin left known unit reference).1 = (graph.resolve ∅ unit reference).1 ∧
      graph.Current (graph.resolveWithin left known unit reference).2 := by
  revert current enough h
  refine resolveWithin_induction (P := fun left known unit reference result =>
    graph.Current known → graph.Suffices left unit reference → left ≤ maxChain →
      result.1 = (graph.resolve ∅ unit reference).1 ∧ graph.Current result.2)
    ?_ ?_ ?_ ?_ ?_ left known unit reference
  · intro known unit reference current enough h
    exact ⟨enough.resolveWithin h, current⟩
  · intro left known unit reference hlost current _ _
    rw [resolve, resolveWithin_lost hlost]
    exact ⟨rfl, current⟩
  · intro left known unit reference node category refers hknown current _ _
    rw [← resolve_node refers, current node category hknown]
    exact ⟨rfl, current⟩
  · intro left known unit reference node category refers final current _ _
    have hfresh : (graph.resolve ∅ unit reference).1 = category := by
      rw [resolve, maxChain, resolveWithin_final refers (find?_empty node) final]
    exact ⟨hfresh.symm, current.remember (by rw [resolve_node refers, hfresh])⟩
  · intro left known unit reference node inner result refers entry ih current enough h
    obtain ⟨hresult, hcurrent⟩ := ih current (enough.next refers entry) (Nat.le_of_succ_le h)
    -- The rest of the chain is found from its own head as well as one entry into the chain.
    have hfresh : (graph.resolve ∅ unit reference).1 = result.1 := by
      rw [hresult, resolve, maxChain, resolveWithin_next refers (find?_empty node) entry]
      exact ((short unit reference).next refers entry).resolveWithin (by decide)
    exact ⟨hfresh.symm, hcurrent.remember (by rw [resolve_node refers, hfresh])⟩

theorem current_remembered (short : ∀ unit reference, graph.Suffices maxChain unit reference)
    (queries : List (Nat × TypeReference)) : graph.Current (graph.remembered queries) :=
  remembered_induction (fun node category h => absurd h (by simp [find?_empty]))
    (fun _ unit reference current =>
      (current.resolveWithin short (short unit reference) (Nat.le_refl maxChain)).2) queries

/-- The category of the target is known after a reference is resolved. -/
theorem find?_resolveWithin (refers : graph.Refers unit reference node) :
    (graph.resolveWithin (left + 1) known unit reference).2.find? node =
      some (graph.resolveWithin (left + 1) known unit reference).1 := by
  cases hknown : known.find? node with
  | some category => rw [resolveWithin_known refers hknown, hknown]
  | none =>
      rcases Final.exists_or_wrapper (graph.entry? node) with ⟨category, hfinal⟩ | ⟨inner, hentry⟩
      · rw [resolveWithin_final refers hknown hfinal, KnownTypes.find?_remember, if_pos rfl]
      · rw [resolveWithin_next refers hknown hentry, KnownTypes.find?_remember, if_pos rfl]

/-- Along a chain the distance to its end is any number up to its length. -/
theorem exists_ends {m : Nat} (ends : graph.Ends unit reference n category) (h : m + 1 ≤ n) :
    ∃ unit reference, graph.Ends unit reference (m + 1) category := by
  induction ends with
  | lost _ => omega
  | final refers final =>
      obtain rfl : m = 0 := by omega
      exact ⟨_, _, .final refers final⟩
  | @next unit reference inner node n category refers entry ends ih =>
      by_cases hn : n = m
      · subst hn
        exact ⟨_, _, .next refers entry ends⟩
      · exact ih (by omega)

/-- A chain with one entry more than the limit makes a difference: once its head has been resolved, the
rest of it is unknown, which alone comes to its end. -/
theorem resolve_differs (ends : graph.Ends unit reference (maxChain + 1) category)
    (hknown : category ≠ .unknown) :
    ∃ unit' reference', (graph.resolve (graph.remembered [(unit, reference)]) unit' reference').1 ≠
      (graph.resolve ∅ unit' reference').1 := by
  cases ends with
  | @next _ _ inner node _ _ refers entry rest =>
      refine ⟨node.1, inner, ?_⟩
      have hfresh : (graph.resolve ∅ node.1 inner).1 = category :=
        (resolveWithin_empty_of_ends rest maxChain).trans (if_pos (Nat.le_refl maxChain))
      -- With one entry less left, the rest is cut, and what is remembered of it is that.
      have hcut : (graph.resolveWithin 31 ∅ node.1 inner).1 = .unknown :=
        (resolveWithin_empty_of_ends rest 31).trans (if_neg (by decide))
      obtain ⟨second, hsecond⟩ : ∃ second, graph.Refers node.1 inner second := by
        cases rest with
        | next refers _ _ => exact ⟨_, refers⟩
      have hremembered : (graph.remembered [(unit, reference)]).find? second = some .unknown := by
        have hstep : graph.remembered [(unit, reference)] =
            (graph.resolveWithin 31 ∅ node.1 inner).2.remember node
              (graph.resolveWithin 31 ∅ node.1 inner).1 :=
          congrArg Prod.snd (resolveWithin_next refers (find?_empty node) entry)
        have hfind : (graph.resolveWithin 31 ∅ node.1 inner).2.find? second =
            some (graph.resolveWithin 31 ∅ node.1 inner).1 := find?_resolveWithin hsecond
        rw [hstep, KnownTypes.find?_remember, hcut]
        split
        · rfl
        · rw [hfind, hcut]
      rw [hfresh, resolve, maxChain, resolveWithin_known hsecond hremembered]
      exact hknown.symm

end TypeGraph
end LibSurvey.DebugInfo
