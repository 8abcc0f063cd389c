import JsExport.Program.Walk
import Mathlib.Data.List.Perm.Basic
import Mathlib.Data.List.Range

/-
  What a walk up the supertypes has done when it ends.

  A walk keeps account of its types: each is entered once,
  and what is entered is either left or still to be left.
  The number of steps it is given is exactly what it needs,
  so it ends with nothing to do, and then it has left every
  type once.

  Main declarations:
    * `Walk.Tracks` and `Walk.Tracks.step`
    * `Walk.work_step`
    * `Walk.agenda_all` and `Walk.tracks_all`
    * `Walk.left_all_prefix`
    * `Walk.misplaced?_eq_none_iff`
-/

namespace JsExport

------------------------------------------------------------
-- Missing Types
------------------------------------------------------------

/- The types, of a number of types, that a list lacks. -/
def TypeId.missing
    (count : Nat)
    (found : List TypeId) : List TypeId :=
  (List.range count).filter (fun t => decide (t ∉ found))

theorem TypeId.mem_missing_iff
    {count : Nat}
    {found : List TypeId}
    {t : TypeId} :
    t ∈ missing count found ↔ t < count ∧ t ∉ found := by
  simp [missing]

/- A type that is found is no longer missing. -/
theorem TypeId.missing_perm
    {count : Nat}
    {t : TypeId}
    {found : List TypeId}
    (hLt : t < count)
    (hNew : t ∉ found) :
    (missing count found).Perm
      (t :: missing count (found ++ [t])) := by
  have hMem : t ∈ missing count found :=
    mem_missing_iff.mpr ⟨hLt, hNew⟩
  have hRest :
      (missing count found).erase t =
        missing count (found ++ [t]) := by
    have hNodup : (missing count found).Nodup :=
      List.nodup_range.filter _
    rw [hNodup.erase_eq_filter]
    unfold missing
    rw [List.filter_filter]
    apply List.filter_congr
    intro s _
    by_cases hs : s = t <;> simp [hs]
  rw [← hRest]
  exact List.perm_cons_erase hMem

/- Finding a missing type leaves fewer types missing. -/
theorem TypeId.length_missing_lt
    {count : Nat}
    {t : TypeId}
    {found more : List TypeId}
    (hLt : t < count)
    (hNew : t ∉ found)
    (hMore : t ∈ more) :
    (missing count (more ++ found)).length <
      (missing count found).length := by
  have hFilter :
      missing count (more ++ found) =
        (missing count found).filter
          (fun s => decide (s ∉ more)) := by
    unfold missing
    rw [List.filter_filter]
    apply List.filter_congr
    intro s _
    simp
  rw [hFilter]
  apply List.length_filter_lt_length_iff_exists.mpr
  exact ⟨t, mem_missing_iff.mpr ⟨hLt, hNew⟩, by simpa⟩

/- That the types have no supertypes besides themselves. -/
def Supertypes.Closed
    (supertypes : TypeId → List TypeId)
    (count : Nat) : Prop :=
  ∀ t < count, ∀ s ∈ supertypes t, s < count

------------------------------------------------------------
-- The Account Of A Walk
------------------------------------------------------------

/- The type that is to be left. -/
def Visit.leaving? : Visit → Option TypeId
| .enter _ => none
| .leave t => some t

namespace Walk

open Supertypes

variable {supertypes : TypeId → List TypeId}
variable {count : Nat}
variable {t : TypeId}
variable {rest : List Visit}
variable {entered left : List TypeId}

/- Leaving a type puts it behind those left before. -/
theorem step_leave :
    step supertypes ⟨.leave t :: rest, entered, left⟩ =
      ⟨rest, entered, left ++ [t]⟩ :=
  rfl

/- A type that is met again is passed over. -/
theorem step_enter_of_mem
    (hIn : t ∈ entered) :
    step supertypes ⟨.enter t :: rest, entered, left⟩ =
      ⟨rest, entered, left⟩ := by
  simp [step, hIn]

/- Entering a type puts its supertypes in front. -/
theorem step_enter_of_not_mem
    (hNew : t ∉ entered) :
    step supertypes ⟨.enter t :: rest, entered, left⟩ =
      ⟨(supertypes t).map Visit.enter ++ .leave t :: rest,
        entered ++ [t], left⟩ := by
  simp [step, hNew]

/- Entering types means leaving none of them yet. -/
theorem leaving_map_enter
    (ts : List TypeId) :
    (ts.map Visit.enter).filterMap Visit.leaving? = [] := by
  rw [List.filterMap_eq_nil_iff]
  intro visit hMem
  rcases List.mem_map.mp hMem with ⟨t, _, rfl⟩
  rfl

/- What is to be entered is not to be left. -/
theorem leave_not_mem_map_enter
    (ts : List TypeId) :
    Visit.leave t ∉ ts.map Visit.enter := by
  intro hMem
  rcases List.mem_map.mp hMem with ⟨s, _, hEq⟩
  cases hEq

/-
  The account: what is on the agenda and what is entered are
  types of the walk, every type is entered or about to be,
  and the types entered are those left and those to leave.
-/
structure Tracks
    (count : Nat)
    (w : Walk) : Prop where
  agenda_lt : ∀ t, Visit.enter t ∈ w.agenda → t < count
  entered_lt : ∀ t ∈ w.entered, t < count
  reached :
    ∀ t < count, t ∈ w.entered ∨ Visit.enter t ∈ w.agenda
  nodup : w.entered.Nodup
  balance :
    w.entered.Perm
      (w.left ++ w.agenda.filterMap Visit.leaving?)

/- What is entered is left or waits to be left. -/
theorem Tracks.mem_entered_iff
    {w : Walk}
    (hTracks : Tracks count w)
    (s : TypeId) :
    s ∈ w.entered ↔ s ∈ w.left ∨ Visit.leave s ∈ w.agenda := by
  rw [hTracks.balance.mem_iff, List.mem_append,
    List.mem_filterMap]
  apply or_congr_right
  constructor
  · intro hWaits
    rcases hWaits with ⟨visit, hMem, hLeave⟩
    cases visit with
    | enter _ => cases hLeave
    | leave _ =>
        cases hLeave
        exact hMem
  · intro hMem
    exact ⟨.leave s, hMem, rfl⟩

/- What waits to be left is not left before. -/
theorem Tracks.not_mem_left
    (hTracks :
      Tracks count ⟨.leave t :: rest, entered, left⟩) :
    t ∉ left := by
  have hNodup := hTracks.balance.nodup_iff.mp hTracks.nodup
  intro hLeft
  have hApart := (List.nodup_append.mp hNodup).2.2
  exact hApart t hLeft t
    (List.mem_filterMap.mpr
      ⟨.leave t, List.mem_cons_self, rfl⟩) rfl

theorem tracks_start
    (count : Nat) :
    Tracks count (start count) := by
  constructor
  · intro t hMem
    simpa [start] using hMem
  · intro t hMem
    simp [start] at hMem
  · intro t hLt
    exact Or.inr (by simpa [start] using hLt)
  · exact List.nodup_nil
  · rw [start, leaving_map_enter]
    exact List.Perm.refl _

/- The account after a type is left. -/
private theorem Tracks.leave
    (hTracks :
      Tracks count ⟨.leave t :: rest, entered, left⟩) :
    Tracks count ⟨rest, entered, left ++ [t]⟩ := by
  constructor
  · intro s hMem
    exact hTracks.agenda_lt s (List.mem_cons_of_mem _ hMem)
  · exact hTracks.entered_lt
  · intro s hLt
    rcases hTracks.reached s hLt with hIn | hAgenda
    · exact Or.inl hIn
    · exact Or.inr (by simpa using hAgenda)
  · exact hTracks.nodup
  · have hBalance := hTracks.balance
    rw [List.filterMap_cons_some (by rfl)] at hBalance
    simpa using hBalance

/- The account after a type is met again. -/
private theorem Tracks.skip
    (hIn : t ∈ entered)
    (hTracks :
      Tracks count ⟨.enter t :: rest, entered, left⟩) :
    Tracks count ⟨rest, entered, left⟩ := by
  constructor
  · intro s hMem
    exact hTracks.agenda_lt s (List.mem_cons_of_mem _ hMem)
  · exact hTracks.entered_lt
  · intro s hLt
    rcases hTracks.reached s hLt with hOld | hAgenda
    · exact Or.inl hOld
    · rcases List.mem_cons.mp hAgenda with hEq | hRest
      · cases hEq
        exact Or.inl hIn
      · exact Or.inr hRest
  · exact hTracks.nodup
  · have hBalance := hTracks.balance
    rw [List.filterMap_cons_none (by rfl)] at hBalance
    exact hBalance

/- The account after a type is entered. -/
private theorem Tracks.enter
    (hClosed : Closed supertypes count)
    (hNew : t ∉ entered)
    (hTracks :
      Tracks count ⟨.enter t :: rest, entered, left⟩) :
    Tracks count
      ⟨(supertypes t).map Visit.enter ++ .leave t :: rest,
        entered ++ [t], left⟩ := by
  have hLt : t < count :=
    hTracks.agenda_lt t List.mem_cons_self
  constructor
  · intro s hMem
    rcases List.mem_append.mp hMem with hSuper | hRest
    · rcases List.mem_map.mp hSuper with ⟨u, hu, hEq⟩
      cases hEq
      exact hClosed t hLt s hu
    · apply hTracks.agenda_lt s
      apply List.mem_cons_of_mem
      simpa using hRest
  · intro s hMem
    rcases List.mem_append.mp hMem with hOld | hSame
    · exact hTracks.entered_lt s hOld
    · rw [List.mem_singleton.mp hSame]
      exact hLt
  · intro s hs
    rcases hTracks.reached s hs with hOld | hAgenda
    · exact Or.inl (List.mem_append_left _ hOld)
    · rcases List.mem_cons.mp hAgenda with hEq | hRest
      · cases hEq
        exact Or.inl (by simp)
      · exact Or.inr (List.mem_append_right _
          (List.mem_cons_of_mem _ hRest))
  · exact List.nodup_append.mpr
      ⟨hTracks.nodup, List.pairwise_singleton _ t, by
        intro a ha b hb hEq
        rw [hEq, List.mem_singleton.mp hb] at ha
        exact hNew ha⟩
  · have hBalance := hTracks.balance
    rw [List.filterMap_cons_none (by rfl)] at hBalance
    rw [List.filterMap_append, leaving_map_enter,
      List.nil_append, List.filterMap_cons_some (by rfl)]
    exact (List.perm_append_singleton t entered).trans
      ((hBalance.cons t).trans List.perm_middle.symm)

/- Every step keeps the account. -/
theorem Tracks.step
    {w : Walk}
    (hClosed : Closed supertypes count)
    (hTracks : Tracks count w) :
    Tracks count (w.step supertypes) := by
  rcases w with ⟨agenda, entered, left⟩
  match agenda, hTracks with
  | [], hTracks => exact hTracks
  | .leave t :: rest, hTracks => exact hTracks.leave
  | .enter t :: rest, hTracks =>
      by_cases hIn : t ∈ entered
      · rw [step_enter_of_mem hIn]
        exact hTracks.skip hIn
      · rw [step_enter_of_not_mem hIn]
        exact hTracks.enter hClosed hIn

theorem Tracks.steps
    (hClosed : Closed supertypes count)
    (n : Nat)
    {w : Walk}
    (hTracks : Tracks count w) :
    Tracks count (steps supertypes n w) := by
  induction n generalizing w with
  | zero => exact hTracks
  | succ n ih => exact ih (hTracks.step hClosed)

------------------------------------------------------------
-- The Work Of A Walk
------------------------------------------------------------

/-
  The steps that are still to do: those on the agenda, and
  for each type to be entered its leaving and the mentions
  of its supertypes.
-/
def work
    (supertypes : TypeId → List TypeId)
    (count : Nat)
    (w : Walk) : Nat :=
  w.agenda.length + (TypeId.missing count w.entered).length +
    ((TypeId.missing count w.entered).flatMap supertypes).length

/- Every step does one thing of what is to do. -/
theorem work_step
    {w : Walk}
    (hTracks : Tracks count w)
    (hBusy : w.agenda ≠ []) :
    work supertypes count (w.step supertypes) + 1 =
      work supertypes count w := by
  rcases w with ⟨agenda, entered, left⟩
  match agenda, hTracks, hBusy with
  | .leave t :: rest, _, _ =>
      rw [step_leave]
      simp only [work, List.length_cons]
      omega
  | .enter t :: rest, hTracks, _ =>
      by_cases hIn : t ∈ entered
      · rw [step_enter_of_mem hIn]
        simp only [work, List.length_cons]
        omega
      · have hPerm :=
          TypeId.missing_perm
            (hTracks.agenda_lt t List.mem_cons_self) hIn
        have hFewer := hPerm.length_eq
        have hMentions :=
          (hPerm.flatMap_right supertypes).length_eq
        simp only [List.flatMap_cons, List.length_append,
          List.length_cons] at hFewer hMentions
        rw [step_enter_of_not_mem hIn]
        simp only [work, List.length_append,
          List.length_map, List.length_cons]
        omega

/- Steps enough for the work leave nothing to do. -/
theorem agenda_steps
    (hClosed : Closed supertypes count)
    {n : Nat}
    {w : Walk}
    (hTracks : Tracks count w)
    (hEnough : work supertypes count w ≤ n) :
    (steps supertypes n w).agenda = [] := by
  induction n generalizing w with
  | zero =>
      apply List.eq_nil_of_length_eq_zero
      have hNone : w.agenda.length ≤ 0 := by
        unfold work at hEnough
        omega
      exact Nat.le_zero.mp hNone
  | succ n ih =>
      apply ih (hTracks.step hClosed)
      by_cases hIdle : w.agenda = []
      · have hSame : w.step supertypes = w := by
          simp [Walk.step, hIdle]
        have hSmall :
            (TypeId.missing count w.entered) = [] := by
          apply List.filter_eq_nil_iff.mpr
          intro t ht
          rcases hTracks.reached t
              (List.mem_range.mp ht) with hIn | hAgenda
          · simpa using hIn
          · simp [hIdle] at hAgenda
        simp [hSame, work, hIdle, hSmall]
      · have hStep :
            work supertypes count (w.step supertypes) + 1 =
              work supertypes count w :=
          work_step hTracks hIdle
        omega

/- The work at the start is what a walk is given. -/
theorem work_start
    (supertypes : TypeId → List TypeId)
    (count : Nat) :
    work supertypes count (start count) =
      length supertypes count := by
  have hAll :
      TypeId.missing count [] = List.range count := by
    simp [TypeId.missing]
  simp only [work, start, hAll, List.length_map,
    List.length_range, length]
  omega

theorem tracks_all
    (hClosed : Closed supertypes count) :
    Tracks count (all supertypes count) :=
  (tracks_start count).steps hClosed _

/- A walk ends with nothing to do. -/
theorem agenda_all
    (hClosed : Closed supertypes count) :
    (all supertypes count).agenda = [] :=
  agenda_steps hClosed (tracks_start count)
    (work_start supertypes count).le

/- A walk has left what it has entered. -/
theorem entered_perm_left_all
    (hClosed : Closed supertypes count) :
    (all supertypes count).entered.Perm
      (all supertypes count).left := by
  have hBalance := (tracks_all hClosed).balance
  simpa [agenda_all hClosed] using hBalance

/- A walk leaves no type twice. -/
theorem nodup_left_all
    (hClosed : Closed supertypes count) :
    (all supertypes count).left.Nodup :=
  (entered_perm_left_all hClosed).nodup_iff.mp
    (tracks_all hClosed).nodup

/- A walk leaves every type. -/
theorem mem_left_all_iff
    (hClosed : Closed supertypes count)
    (t : TypeId) :
    t ∈ (all supertypes count).left ↔ t < count := by
  rw [← (entered_perm_left_all hClosed).mem_iff]
  constructor
  · exact (tracks_all hClosed).entered_lt t
  · intro hLt
    rcases (tracks_all hClosed).reached t hLt with
      hIn | hAgenda
    · exact hIn
    · simp [agenda_all hClosed] at hAgenda

------------------------------------------------------------
-- Walks Over More Types
------------------------------------------------------------

theorem steps_add
    (m n : Nat)
    (w : Walk) :
    steps supertypes (m + n) w =
      steps supertypes n (steps supertypes m w) := by
  induction m generalizing w with
  | zero => rw [Nat.zero_add]; rfl
  | succ m ih =>
      rw [Nat.succ_add]
      exact ih (w.step supertypes)

/- What is left stays left. -/
theorem left_prefix_step
    (w : Walk) :
    w.left <+: (w.step supertypes).left := by
  rcases w with ⟨agenda, entered, left⟩
  match agenda with
  | [] => exact List.prefix_refl left
  | .leave t :: rest => exact List.prefix_append left [t]
  | .enter t :: rest =>
      by_cases hIn : t ∈ entered
      · refine ⟨[], ?_⟩
        rw [step_enter_of_mem hIn, List.append_nil]
      · refine ⟨[], ?_⟩
        rw [step_enter_of_not_mem hIn, List.append_nil]

theorem left_prefix_steps
    (n : Nat)
    (w : Walk) :
    w.left <+: (steps supertypes n w).left := by
  induction n generalizing w with
  | zero => exact List.prefix_refl _
  | succ n ih =>
      exact (left_prefix_step w).trans
        (ih (w.step supertypes))

/- What is entered stays entered. -/
theorem entered_prefix_steps
    (n : Nat)
    (w : Walk) :
    w.entered <+: (steps supertypes n w).entered := by
  have hStep :
      ∀ w : Walk, w.entered <+: (w.step supertypes).entered := by
    intro w
    rcases w with ⟨agenda, entered, left⟩
    match agenda with
    | [] => exact List.prefix_refl entered
    | .leave t :: rest => exact List.prefix_refl entered
    | .enter t :: rest =>
        by_cases hIn : t ∈ entered
        · simp only [step_enter_of_mem hIn, List.prefix_refl]
        · simp only [step_enter_of_not_mem hIn,
            List.prefix_append]
  induction n generalizing w with
  | zero => exact List.prefix_refl _
  | succ n ih =>
      exact (hStep w).trans (ih (w.step supertypes))

/- The walk with more to do at the end. -/
def extend
    (w : Walk)
    (more : List Visit) : Walk :=
  ⟨w.agenda ++ more, w.entered, w.left⟩

/-
  A step does not look beyond the first thing to do, nor at
  the supertypes of other types.
-/
theorem step_extend
    {wider : TypeId → List TypeId}
    (hAgree : ∀ t < count, wider t = supertypes t)
    {w : Walk}
    (hTracks : Tracks count w)
    (hBusy : w.agenda ≠ [])
    (more : List Visit) :
    (w.extend more).step wider =
      (w.step supertypes).extend more := by
  rcases w with ⟨agenda, entered, left⟩
  match agenda, hTracks, hBusy with
  | .leave t :: rest, _, _ => rfl
  | .enter t :: rest, hTracks, _ =>
      have hSame : wider t = supertypes t :=
        hAgree t (hTracks.agenda_lt t List.mem_cons_self)
      by_cases hIn : t ∈ entered
      · rw [step_enter_of_mem hIn]
        exact step_enter_of_mem hIn
      · rw [step_enter_of_not_mem hIn, ← hSame]
        simp [extend, step, hIn]

/-
  With more to do at the end, a walk first does what it does
  without, and then turns to the rest.
-/
theorem exists_steps_extend
    {wider : TypeId → List TypeId}
    (hClosed : Closed supertypes count)
    (hAgree : ∀ t < count, wider t = supertypes t)
    (more : List Visit)
    {n : Nat}
    {w : Walk}
    (hTracks : Tracks count w)
    (hDone : (steps supertypes n w).agenda = []) :
    ∃ m ≤ n, steps wider m (w.extend more) =
      (steps supertypes n w).extend more := by
  induction n generalizing w with
  | zero => exact ⟨0, Nat.le_refl 0, rfl⟩
  | succ n ih =>
      by_cases hIdle : w.agenda = []
      · have hSame : w.step supertypes = w := by
          simp [step, hIdle]
        have hRest :
            steps supertypes (n + 1) w =
              steps supertypes n w := by
          change steps supertypes n (w.step supertypes) = _
          rw [hSame]
        rw [hRest] at hDone ⊢
        rcases ih hTracks hDone with ⟨m, hm, hEq⟩
        exact ⟨m, Nat.le_succ_of_le hm, hEq⟩
      · rcases ih (hTracks.step hClosed) hDone with
          ⟨m, hm, hEq⟩
        refine ⟨m + 1, Nat.succ_le_succ hm, ?_⟩
        change steps wider m ((w.extend more).step wider) = _
        rw [step_extend hAgree hTracks hIdle more, hEq]
        rfl

/- More types take more steps. -/
theorem length_le_length
    {wider : TypeId → List TypeId}
    (hAgree : ∀ t < count, wider t = supertypes t)
    (more : Nat) :
    length supertypes count ≤ length wider (count + more) := by
  have hFirst :
      (List.range count).flatMap wider =
        (List.range count).flatMap supertypes := by
    rw [List.flatMap_def, List.flatMap_def]
    congr 1
    apply List.map_congr_left
    intro t ht
    exact hAgree t (List.mem_range.mp ht)
  unfold length
  rw [List.range_add, List.flatMap_append,
    List.length_append, hFirst]
  omega

/- A walk over more types begins like the walk over fewer. -/
theorem left_all_prefix
    {wider : TypeId → List TypeId}
    (hClosed : Closed supertypes count)
    (hAgree : ∀ t < count, wider t = supertypes t)
    (more : Nat) :
    (all supertypes count).left <+:
      (all wider (count + more)).left := by
  have hStart :
      ∃ rest, start (count + more) =
        (start count).extend rest := by
    refine ⟨((List.range more).map (count + ·)).map
      Visit.enter, ?_⟩
    simp [start, extend, List.range_add]
  rcases hStart with ⟨rest, hStart⟩
  rcases exists_steps_extend hClosed hAgree rest
      (tracks_start count) (agenda_all hClosed) with
    ⟨m, hm, hEq⟩
  have hFits :
      length wider (count + more) =
        m + (length wider (count + more) - m) := by
    have hLe := length_le_length hAgree more
    omega
  have hSplit :
      all wider (count + more) =
        steps wider (length wider (count + more) - m)
          ((all supertypes count).extend rest) := by
    unfold all
    rw [hFits, steps_add, hStart, hEq, ← hFits]
  rw [hSplit]
  exact left_prefix_steps _
    ((all supertypes count).extend rest)

------------------------------------------------------------
-- Lists With Subtypes First
------------------------------------------------------------

/-
  Nothing is misplaced in a list that has all subtypes of
  each type before it.
-/
theorem misplaced?_eq_none_iff
    (subtypes : TypeId → List TypeId)
    (seen ts : List TypeId) :
    misplaced? subtypes seen ts = none ↔
      ∀ before t after, ts = before ++ t :: after →
        ∀ s ∈ subtypes t,
          s ∈ seen ∨ s ∈ before ∨ s = t := by
  induction ts generalizing seen with
  | nil => simp [misplaced?]
  | cons u us ih =>
      have hHead :
          (subtypes u).find?
              (fun s => decide (s ∉ u :: seen)) = none ↔
            ∀ s ∈ subtypes u, s ∈ seen ∨ s = u := by
        rw [List.find?_eq_none]
        apply forall_congr'
        intro s
        apply imp_congr_right
        intro _
        rw [decide_eq_true_eq, List.mem_cons]
        tauto
      constructor
      · intro hNone before t after hSplit s hs
        have hParts :
            (subtypes u).find?
                (fun s => decide (s ∉ u :: seen)) = none ∧
              misplaced? subtypes (u :: seen) us = none := by
          unfold misplaced? at hNone
          split at hNone
          · cases hNone
          · rename_i hFind
            exact ⟨hFind, hNone⟩
        rcases List.cons_eq_append_iff.mp hSplit with
          ⟨rfl, hEq⟩ | ⟨before', rfl, hEq⟩
        · cases hEq
          rcases hHead.mp hParts.1 s hs with hSeen | hSame
          · exact Or.inl hSeen
          · exact Or.inr (Or.inr hSame)
        · have hRest :=
            (ih (u :: seen)).mp hParts.2 before' t after
              hEq s hs
          simp only [List.mem_cons] at hRest ⊢
          tauto
      · intro hAll
        have hFind := hHead.mpr (fun s hs => by
          have hFirst := hAll [] u us rfl s hs
          simpa using hFirst)
        unfold misplaced?
        rw [hFind]
        apply (ih (u :: seen)).mpr
        intro before t after hSplit s hs
        have hRest :=
          hAll (u :: before) t after (by rw [hSplit]; rfl)
            s hs
        simp only [List.mem_cons] at hRest ⊢
        tauto

end Walk

end JsExport
