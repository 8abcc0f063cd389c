import JsExport.Proofs.Hierarchy.Order

/-
  The order of types by a search in two phases.

  The types are the nodes of a graph with an edge for each
  mention of a supertype.  The first phase searches upwards
  depth first, with a stack, and lists a type when all above
  it is searched.  The second phase goes through that list
  from its end, and looks below each type for one that it
  has not been through.

  A walk does both.  Its agenda is the stack and the types
  that wait for their turn, besides types that it has
  entered before; so it comes to the same order, and finds
  the same type on a cycle.

  Main declarations:
    * `Toposort.Searches` and `Toposort.Scans`
    * `Toposort.Sorts`
    * `Toposort.mirrors`
    * `Toposort.scans_misplaced?`
    * `Toposort.sorts_walk`
    * `Hierarchy.ofTypes?_eq_ofSorted`
-/

namespace JsExport

open Supertypes

namespace Toposort

------------------------------------------------------------
-- Graphs
------------------------------------------------------------

/- An edge from each type to each of its supertypes. -/
def edges
    (types : List TypeDecl) : List (TypeId × TypeId) :=
  types.zipIdx.flatMap (fun e =>
    e.1.supertypes.map (fun s => (e.2, s)))

/- The supertypes of a type, the newest edge first. -/
def above
    (types : List TypeDecl)
    (t : TypeId) : List TypeId :=
  (((edges types).filter (fun e => decide (e.1 = t))).map
    (fun e => e.2)).reverse

/- The subtypes of a type, the newest edge first. -/
def below
    (types : List TypeDecl)
    (t : TypeId) : List TypeId :=
  (((edges types).filter (fun e => decide (e.2 = t))).map
    (fun e => e.1)).reverse

------------------------------------------------------------
-- Searches In Two Phases
------------------------------------------------------------

/- Push the types that are not found, one after another. -/
def push
    (found stack ts : List TypeId) : List TypeId :=
  ts.foldl (fun stack s =>
    if s ∈ found then stack else s :: stack) stack

/-
  The first phase, from the types that wait for their turn,
  a stack, and the types found and finished so far.  It ends
  with the finished types or with a type above itself.
-/
inductive Searches
    (above : TypeId → List TypeId) :
    List TypeId → List TypeId → List TypeId → List TypeId →
      Except TypeId (List TypeId) → Prop
| ends
    {found finished : List TypeId} :
    Searches above [] [] found finished (.ok finished)
| next
    {t : TypeId}
    {waiting found finished : List TypeId}
    {result : Except TypeId (List TypeId)}
    (hRest :
      Searches above waiting
        (if t ∈ found then [] else [t]) found finished
        result) :
    Searches above (t :: waiting) [] found finished result
| cycle
    {t : TypeId}
    {waiting stack found finished : List TypeId}
    (hNew : t ∉ found)
    (hSelf : t ∈ above t) :
    Searches above waiting (t :: stack) found finished
      (.error t)
| enter
    {t : TypeId}
    {waiting stack found finished : List TypeId}
    {result : Except TypeId (List TypeId)}
    (hNew : t ∉ found)
    (hProper : t ∉ above t)
    (hRest :
      Searches above waiting
        (push (found ++ [t]) (t :: stack) (above t))
        (found ++ [t]) finished result) :
    Searches above waiting (t :: stack) found finished
      result
| leave
    {t : TypeId}
    {waiting stack found finished : List TypeId}
    {result : Except TypeId (List TypeId)}
    (hFound : t ∈ found)
    (hRest :
      Searches above waiting stack found
        (if t ∈ finished then finished
          else finished ++ [t]) result) :
    Searches above waiting (t :: stack) found finished
      result

/-
  The second phase, from the types that wait for their turn,
  a stack, the types found so far, and whether one has been
  found in this turn.  It ends with a second one, if any.
-/
inductive Scans
    (below : TypeId → List TypeId) :
    List TypeId → List TypeId → List TypeId → Bool →
      Option TypeId → Prop
| ends
    {found : List TypeId}
    {visited : Bool} :
    Scans below [] [] found visited none
| next
    {t : TypeId}
    {waiting found : List TypeId}
    {visited : Bool}
    {result : Option TypeId}
    (hRest : Scans below waiting [t] found false result) :
    Scans below (t :: waiting) [] found visited result
| skip
    {t : TypeId}
    {waiting stack found : List TypeId}
    {visited : Bool}
    {result : Option TypeId}
    (hFound : t ∈ found)
    (hRest : Scans below waiting stack found visited result) :
    Scans below waiting (t :: stack) found visited result
| second
    {t : TypeId}
    {waiting stack found : List TypeId}
    (hNew : t ∉ found) :
    Scans below waiting (t :: stack) found true (some t)
| first
    {t : TypeId}
    {waiting stack found : List TypeId}
    {result : Option TypeId}
    (hNew : t ∉ found)
    (hRest :
      Scans below waiting
        (push (found ++ [t]) stack (below t))
        (found ++ [t]) true result) :
    Scans below waiting (t :: stack) found false result

/- What both phases find: an order, or a type on a cycle. -/
inductive Sorts
    (types : List TypeDecl) :
    Except TypeId (List TypeId) → Prop
| own
    {t : TypeId}
    (hSearch :
      Searches (above types) (List.range types.length)
        [] [] [] (.error t)) :
    Sorts types (.error t)
| crossed
    {finished : List TypeId}
    {t : TypeId}
    (hSearch :
      Searches (above types) (List.range types.length)
        [] [] [] (.ok finished))
    (hScan :
      Scans (below types) finished.reverse [] [] false
        (some t)) :
    Sorts types (.error t)
| sorted
    {finished : List TypeId}
    (hSearch :
      Searches (above types) (List.range types.length)
        [] [] [] (.ok finished))
    (hScan :
      Scans (below types) finished.reverse [] [] false
        none) :
    Sorts types (.ok finished)

------------------------------------------------------------
-- Results
------------------------------------------------------------

/- A search comes to one result. -/
theorem Searches.unique
    {above : TypeId → List TypeId}
    {waiting stack found finished : List TypeId}
    {result other : Except TypeId (List TypeId)}
    (hResult :
      Searches above waiting stack found finished result)
    (hOther :
      Searches above waiting stack found finished other) :
    result = other := by
  induction hResult with
  | ends =>
      cases hOther
      rfl
  | next _ ih =>
      cases hOther with
      | next hRest => exact ih hRest
  | cycle hNew hSelf =>
      cases hOther with
      | cycle _ _ => rfl
      | enter _ hProper _ => exact absurd hSelf hProper
      | leave hFound _ => exact absurd hFound hNew
  | enter hNew hProper _ ih =>
      cases hOther with
      | cycle _ hSelf => exact absurd hSelf hProper
      | enter _ _ hRest => exact ih hRest
      | leave hFound _ => exact absurd hFound hNew
  | leave hFound _ ih =>
      cases hOther with
      | cycle hNew _ => exact absurd hFound hNew
      | enter hNew _ _ => exact absurd hFound hNew
      | leave _ hRest => exact ih hRest

/- A scan comes to one result. -/
theorem Scans.unique
    {below : TypeId → List TypeId}
    {waiting stack found : List TypeId}
    {visited : Bool}
    {result other : Option TypeId}
    (hResult :
      Scans below waiting stack found visited result)
    (hOther :
      Scans below waiting stack found visited other) :
    result = other := by
  induction hResult with
  | ends =>
      cases hOther
      rfl
  | next _ ih =>
      cases hOther with
      | next hRest => exact ih hRest
  | skip hFound _ ih =>
      cases hOther with
      | skip _ hRest => exact ih hRest
      | second hNew => exact absurd hFound hNew
      | first hNew _ => exact absurd hFound hNew
  | second hNew =>
      cases hOther with
      | skip hFound _ => exact absurd hFound hNew
      | second _ => rfl
  | first hNew _ ih =>
      cases hOther with
      | skip hFound _ => exact absurd hFound hNew
      | first _ hRest => exact ih hRest

/- Both phases together come to one result. -/
theorem Sorts.unique
    {types : List TypeDecl}
    {result other : Except TypeId (List TypeId)}
    (hResult : Sorts types result)
    (hOther : Sorts types other) :
    result = other := by
  cases hResult with
  | own hSearch =>
      cases hOther with
      | own hSearch' => exact hSearch.unique hSearch'
      | crossed hSearch' _ =>
          cases hSearch.unique hSearch'
      | sorted hSearch' _ =>
          cases hSearch.unique hSearch'
  | crossed hSearch hScan =>
      cases hOther with
      | own hSearch' => cases hSearch.unique hSearch'
      | crossed hSearch' hScan' =>
          cases hSearch.unique hSearch'
          cases hScan.unique hScan'
          rfl
      | sorted hSearch' hScan' =>
          cases hSearch.unique hSearch'
          cases hScan.unique hScan'
  | sorted hSearch hScan =>
      cases hOther with
      | own hSearch' => cases hSearch.unique hSearch'
      | crossed hSearch' hScan' =>
          cases hSearch.unique hSearch'
          cases hScan.unique hScan'
      | sorted hSearch' _ => exact hSearch.unique hSearch'

------------------------------------------------------------
-- Neighbours
------------------------------------------------------------

/- The last type that is pushed comes first. -/
theorem push_reverse
    (found stack ts : List TypeId) :
    push found stack ts.reverse =
      ts.filter (fun s => decide (s ∉ found)) ++ stack := by
  unfold push
  rw [List.foldl_reverse]
  induction ts with
  | nil => rfl
  | cons t ts ih =>
      rw [List.foldr_cons, ih]
      by_cases hFound : t ∈ found
      · simp [hFound]
      · simp [hFound]

/- The edges from one type lead to its supertypes. -/
theorem targets_of_type
    (d : TypeDecl)
    (start t : TypeId) :
    ((d.supertypes.map (fun s => (start, s))).filter
        (fun e => decide (e.1 = t))).map (fun e => e.2) =
      if start = t then d.supertypes else [] := by
  rw [List.filter_map, List.map_map]
  by_cases hSame : start = t
  · simp [Function.comp_def, hSame]
  · simp [Function.comp_def, hSame]

/- As many edges come from a type as it mentions another. -/
theorem sources_of_type
    (d : TypeDecl)
    (start t : TypeId) :
    ((d.supertypes.map (fun s => (start, s))).filter
        (fun e => decide (e.2 = t))).map (fun e => e.1) =
      List.replicate (d.supertypes.count t) start := by
  rw [List.filter_map, List.map_map,
    List.count_eq_length_filter, ← List.map_const']
  rfl

/- The targets among types that are numbered from a start. -/
theorem targets_zipIdx
    (types : List TypeDecl)
    (start t : Nat) :
    (((types.zipIdx start).flatMap (fun e =>
        e.1.supertypes.map (fun s => (e.2, s)))).filter
          (fun e => decide (e.1 = t))).map (fun e => e.2) =
      if start ≤ t then ofTypes types (t - start)
      else [] := by
  induction types generalizing start with
  | nil => split <;> rfl
  | cons d types ih =>
      rw [List.zipIdx_cons, List.flatMap_cons,
        List.filter_append, List.map_append, ih,
        targets_of_type]
      rcases Nat.lt_trichotomy start t with
        hLess | hSame | hMore
      · have hNext : t - start = t - (start + 1) + 1 := by
          omega
        rw [if_neg (Nat.ne_of_lt hLess),
          if_pos (Nat.succ_le_of_lt hLess),
          if_pos (Nat.le_of_lt hLess), hNext]
        rfl
      · subst hSame
        rw [if_pos rfl,
          if_neg (Nat.not_succ_le_self start),
          if_pos (Nat.le_refl start), Nat.sub_self,
          List.append_nil]
        rfl
      · rw [if_neg (Nat.ne_of_gt hMore),
          if_neg (by omega), if_neg (by omega)]
        rfl

/- The edges from a type lead to its supertypes in order. -/
theorem above_eq_reverse
    (types : List TypeDecl)
    (t : TypeId) :
    above types t = (ofTypes types t).reverse := by
  have hAll := targets_zipIdx types 0 t
  rw [if_pos (Nat.zero_le t), Nat.sub_zero] at hAll
  unfold above edges
  rw [hAll]

/- The edges to a type come from its subtypes in order. -/
theorem find?_reverse_below
    (types : List TypeDecl)
    (t : TypeId)
    (test : TypeId → Bool) :
    (below types t).reverse.find? test =
      (Supertypes.subtypes types t).find? test := by
  unfold below edges Supertypes.subtypes
  rw [List.reverse_reverse]
  induction types.zipIdx with
  | nil => rfl
  | cons e es ih =>
      rw [List.flatMap_cons, List.filter_append,
        List.map_append, List.find?_append, ih,
        sources_of_type, List.find?_replicate,
        List.filter_cons]
      by_cases hSuper : t ∈ e.1.supertypes
      · have hSome := List.count_pos_iff.mpr hSuper
        rw [if_neg (Nat.ne_of_gt hSome),
          if_pos (decide_eq_true hSuper), List.map_cons,
          List.find?_cons]
        cases test e.2 <;> rfl
      · rw [if_pos (List.count_eq_zero.mpr hSuper)]
        simp [hSuper]

------------------------------------------------------------
-- The First Phase
------------------------------------------------------------

/-
  That an agenda does what a stack does.  A type on the
  stack is to be left, or to be entered; in the latter case
  it is not to be left later on.  The agenda may moreover
  enter types again.
-/
inductive Follows
    (entered : List TypeId) :
    List Visit → List TypeId → Prop
| nil : Follows entered [] []
| again
    {t : TypeId}
    {agenda : List Visit}
    {stack : List TypeId}
    (hIn : t ∈ entered)
    (hRest : Follows entered agenda stack) :
    Follows entered (.enter t :: agenda) stack
| enter
    {t : TypeId}
    {agenda : List Visit}
    {stack : List TypeId}
    (hOnce : Visit.leave t ∉ agenda)
    (hRest : Follows entered agenda stack) :
    Follows entered (.enter t :: agenda) (t :: stack)
| leave
    {t : TypeId}
    {agenda : List Visit}
    {stack : List TypeId}
    (hRest : Follows entered agenda stack) :
    Follows entered (.leave t :: agenda) (t :: stack)

theorem Follows.mono
    {entered more : List TypeId}
    {agenda : List Visit}
    {stack : List TypeId}
    (hMore : entered ⊆ more)
    (hFollows : Follows entered agenda stack) :
    Follows more agenda stack := by
  induction hFollows with
  | nil => exact .nil
  | again hIn _ ih => exact .again (hMore hIn) ih
  | enter hOnce _ ih => exact .enter hOnce ih
  | leave _ ih => exact .leave ih

/- Supertypes to be entered do what those pushed do. -/
theorem Follows.enters
    {entered : List TypeId}
    {agenda : List Visit}
    {stack : List TypeId}
    (hWaits : ∀ s, Visit.leave s ∈ agenda → s ∈ entered)
    (hFollows : Follows entered agenda stack)
    (ts : List TypeId) :
    Follows entered (ts.map Visit.enter ++ agenda)
      (ts.filter (fun s => decide (s ∉ entered)) ++
        stack) := by
  induction ts with
  | nil => exact hFollows
  | cons t ts ih =>
      by_cases hIn : t ∈ entered
      · rw [List.filter_cons_of_neg (by simpa using hIn)]
        exact .again hIn ih
      · rw [List.filter_cons_of_pos (by simpa using hIn)]
        refine .enter ?_ ih
        intro hLeave
        rcases List.mem_append.mp hLeave with hNow | hLater
        · exact Walk.leave_not_mem_map_enter ts hNow
        · exact hIn (hWaits t hLater)

/- What the first phase finds where a walk ends. -/
def searched
    (supertypes : TypeId → List TypeId)
    (w : Walk) : Except TypeId (List TypeId) :=
  match Walk.selfSupertype? supertypes w with
  | some t => .error t
  | none => .ok w.left

section Search

variable {supertypes above : TypeId → List TypeId}
variable {t : TypeId}
variable {entered : List TypeId}

/- The first type entered that is above itself is found. -/
theorem searched_of_self
    {w : Walk}
    (hPrefix : entered ++ [t] <+: w.entered)
    (hProper : ∀ s ∈ entered, s ∉ supertypes s)
    (hSelf : t ∈ supertypes t) :
    searched supertypes w = .error t := by
  have hFind :
      Walk.selfSupertype? supertypes w = some t := by
    rcases hPrefix with ⟨more, hMore⟩
    have hNone :
        entered.find? (fun s => decide (s ∈ supertypes s)) =
          none := by
      apply List.find?_eq_none.mpr
      intro s hs
      simpa using hProper s hs
    have hHere :
        [t].find? (fun s => decide (s ∈ supertypes s)) =
          some t := by
      simp [hSelf]
    unfold Walk.selfSupertype?
    rw [← hMore, List.find?_append, List.find?_append, hNone,
      hHere]
    rfl
  unfold searched
  rw [hFind]

theorem searched_of_proper
    {w : Walk}
    (hProper : ∀ s ∈ w.entered, s ∉ supertypes s) :
    searched supertypes w = .ok w.left := by
  have hFind :
      Walk.selfSupertype? supertypes w = none := by
    apply List.find?_eq_none.mpr
    intro s hs
    simpa using hProper s hs
  unfold searched
  rw [hFind]

variable (hAbove : ∀ t, above t = (supertypes t).reverse)

include hAbove

/- A walk that has entered a type goes on as a search does. -/
theorem searches_enter
    {stack waiting left : List TypeId}
    {front : List Visit}
    {final : Walk}
    (hNew : t ∉ entered)
    (hWaits : ∀ s, Visit.leave s ∈ front → s ∈ entered)
    (hFollows : Follows entered front stack)
    (hProper : ∀ s ∈ entered, s ∉ supertypes s)
    (hPrefix : entered ++ [t] <+: final.entered)
    (hRest :
      Follows (entered ++ [t])
          ((supertypes t).map Visit.enter ++
            .leave t :: front)
          ((supertypes t).filter
            (fun s => decide (s ∉ entered ++ [t])) ++
              t :: stack) →
        (∀ s ∈ entered ++ [t], s ∉ supertypes s) →
          Searches above waiting
            ((supertypes t).filter
              (fun s => decide (s ∉ entered ++ [t])) ++
                t :: stack)
            (entered ++ [t]) left
            (searched supertypes final)) :
    Searches above waiting (t :: stack) entered left
      (searched supertypes final) := by
  by_cases hSelf : t ∈ supertypes t
  · rw [searched_of_self hPrefix hProper hSelf]
    apply Searches.cycle hNew
    rw [hAbove, List.mem_reverse]
    exact hSelf
  · have hEnters :
        Follows (entered ++ [t])
          ((supertypes t).map Visit.enter ++
            .leave t :: front)
          ((supertypes t).filter
            (fun s => decide (s ∉ entered ++ [t])) ++
              t :: stack) := by
      apply Follows.enters
      · intro s hLeave
        rcases List.mem_cons.mp hLeave with hEq | hLater
        · cases hEq
          simp
        · exact List.mem_append_left _ (hWaits s hLater)
      · exact .leave
          (hFollows.mono (List.subset_append_left _ _))
    refine .enter hNew ?_ ?_
    · rw [hAbove, List.mem_reverse]
      exact hSelf
    · rw [hAbove, push_reverse]
      apply hRest hEnters
      intro s hs
      rcases List.mem_append.mp hs with hOld | hSame
      · exact hProper s hOld
      · rw [List.mem_singleton.mp hSame]
        exact hSelf

/-
  That walks with a number of steps left come to what the
  searches find that they follow.
-/
def Mirrors
    (supertypes above : TypeId → List TypeId)
    (count n : Nat) : Prop :=
  ∀ (w : Walk) (front : List Visit)
    (stack waiting : List TypeId),
    Walk.Tracks count w →
    w.agenda = front ++ waiting.map Visit.enter →
    Follows w.entered front stack →
    (∀ s ∈ w.entered, s ∉ supertypes s) →
    (Walk.steps supertypes n w).agenda = [] →
      Searches above waiting stack w.entered w.left
        (searched supertypes (Walk.steps supertypes n w))

section Steps

variable {count n : Nat}
variable (hClosed : Closed supertypes count)
variable (hMirrors : Mirrors supertypes above count n)
variable {front : List Visit}
variable {stack waiting left : List TypeId}

include hClosed hMirrors

/- The next step is to enter a type for the first time. -/
theorem Mirrors.enter
    (hTracks :
      Walk.Tracks count
        ⟨.enter t :: (front ++ waiting.map Visit.enter),
          entered, left⟩)
    (hFollows : Follows entered front stack)
    (hProper : ∀ s ∈ entered, s ∉ supertypes s)
    (hNew : t ∉ entered)
    (hIdle :
      (Walk.steps supertypes (n + 1)
        ⟨.enter t :: (front ++ waiting.map Visit.enter),
          entered, left⟩).agenda = []) :
    Searches above waiting (t :: stack) entered left
      (searched supertypes
        (Walk.steps supertypes (n + 1)
          ⟨.enter t :: (front ++ waiting.map Visit.enter),
            entered, left⟩)) := by
  have hStep := hTracks.step hClosed
  rw [Walk.steps] at hIdle ⊢
  rw [Walk.step_enter_of_not_mem hNew] at hStep hIdle ⊢
  have hLater :
      entered ++ [t] <+:
        (Walk.steps supertypes n
          ⟨(supertypes t).map Visit.enter ++
              .leave t ::
                (front ++ waiting.map Visit.enter),
            entered ++ [t], left⟩).entered :=
    Walk.entered_prefix_steps n ⟨_, entered ++ [t], _⟩
  refine searches_enter hAbove hNew ?_ hFollows hProper
    hLater ?_
  · intro s hLeave
    apply (hTracks.mem_entered_iff s).mpr
    exact .inr (List.mem_cons_of_mem _
      (List.mem_append_left _ hLeave))
  · intro hEnters hMore
    refine hMirrors ⟨_, entered ++ [t], left⟩ _ _ waiting
      hStep ?_ hEnters hMore hIdle
    rw [List.append_assoc, List.cons_append]

omit hAbove in
/- The next step is to enter a type again. -/
theorem Mirrors.again
    (hTracks :
      Walk.Tracks count
        ⟨.enter t :: (front ++ waiting.map Visit.enter),
          entered, left⟩)
    (hFollows : Follows entered front stack)
    (hProper : ∀ s ∈ entered, s ∉ supertypes s)
    (hIn : t ∈ entered)
    (hIdle :
      (Walk.steps supertypes (n + 1)
        ⟨.enter t :: (front ++ waiting.map Visit.enter),
          entered, left⟩).agenda = []) :
    Searches above waiting stack entered left
      (searched supertypes
        (Walk.steps supertypes (n + 1)
          ⟨.enter t :: (front ++ waiting.map Visit.enter),
            entered, left⟩)) := by
  have hStep := hTracks.step hClosed
  rw [Walk.steps] at hIdle ⊢
  rw [Walk.step_enter_of_mem hIn] at hStep hIdle ⊢
  exact hMirrors ⟨_, entered, left⟩ front stack waiting
    hStep rfl hFollows hProper hIdle

omit hAbove in
/- The next step is to leave a type. -/
theorem Mirrors.leave
    (hTracks :
      Walk.Tracks count
        ⟨.leave t :: (front ++ waiting.map Visit.enter),
          entered, left⟩)
    (hFollows : Follows entered front stack)
    (hProper : ∀ s ∈ entered, s ∉ supertypes s)
    (hIdle :
      (Walk.steps supertypes (n + 1)
        ⟨.leave t :: (front ++ waiting.map Visit.enter),
          entered, left⟩).agenda = []) :
    Searches above waiting (t :: stack) entered left
      (searched supertypes
        (Walk.steps supertypes (n + 1)
          ⟨.leave t :: (front ++ waiting.map Visit.enter),
            entered, left⟩)) := by
  have hStep := hTracks.step hClosed
  have hFound : t ∈ entered :=
    (hTracks.mem_entered_iff t).mpr
      (.inr List.mem_cons_self)
  apply Searches.leave hFound
  rw [if_neg hTracks.not_mem_left]
  exact hMirrors ⟨_, entered, left ++ [t]⟩ front stack
    waiting hStep rfl hFollows hProper hIdle

end Steps

/-
  A walk that follows a search comes to what it finds.  The
  induction is on the steps of the walk; the search does
  nothing where the walk enters a type again.
-/
theorem mirrors
    {count : Nat}
    (hClosed : Closed supertypes count)
    (n : Nat) :
    Mirrors supertypes above count n := by
  induction n with
  | zero =>
      intro w front stack waiting _ hAgenda hFollows hProper
        hIdle
      rcases List.append_eq_nil_iff.mp
          (hAgenda.symm.trans hIdle) with
        ⟨rfl, hWaiting⟩
      cases List.map_eq_nil_iff.mp hWaiting
      cases hFollows
      rw [Walk.steps, searched_of_proper hProper]
      exact .ends
  | succ n ih =>
      intro w front stack waiting hTracks hAgenda hFollows
        hProper hIdle
      rcases w with ⟨agenda, entered, left⟩
      dsimp only at hAgenda hFollows hProper ⊢
      subst hAgenda
      cases hFollows with
      | nil =>
          cases waiting with
          | nil =>
              exact ih ⟨[], entered, left⟩ [] [] [] hTracks
                rfl .nil hProper hIdle
          | cons t waiting =>
              have hFirst :
                  Walk.Tracks count
                    ⟨.enter t ::
                      ([] ++ waiting.map Visit.enter),
                      entered, left⟩ :=
                hTracks
              apply Searches.next
              by_cases hIn : t ∈ entered
              · rw [if_pos hIn]
                exact ih.again hClosed hFirst .nil hProper
                  hIn hIdle
              · rw [if_neg hIn]
                exact ih.enter hAbove hClosed hFirst .nil
                  hProper hIn hIdle
      | again hIn hRest =>
          exact ih.again hClosed hTracks hRest hProper hIn
            hIdle
      | @enter t front stack hOnce hRest =>
          by_cases hIn : t ∈ entered
          · -- What was entered and does not wait is left.
            have hLeft : t ∈ left := by
              apply ((hTracks.mem_entered_iff t).mp
                hIn).resolve_right
              simp [hOnce]
            apply Searches.leave hIn
            rw [if_pos hLeft]
            exact ih.again hClosed hTracks hRest hProper hIn
              hIdle
          · exact ih.enter hAbove hClosed hTracks hRest
              hProper hIn hIdle
      | leave hRest =>
          exact ih.leave hClosed hTracks hRest hProper hIdle

end Search

------------------------------------------------------------
-- The Second Phase
------------------------------------------------------------

/- A scan finds the first type that is misplaced. -/
theorem scans_misplaced?
    (types : List TypeDecl)
    {ts seen found : List TypeId}
    (visited : Bool)
    (hSame : ∀ t, t ∈ found ↔ t ∈ seen)
    (hNew : ∀ t ∈ ts, t ∉ seen)
    (hNodup : ts.Nodup) :
    Scans (below types) ts [] found visited
      (Walk.misplaced? (Supertypes.subtypes types) seen
        ts) := by
  induction ts generalizing seen found visited with
  | nil => exact .ends
  | cons t ts ih =>
      rcases List.nodup_cons.mp hNodup with ⟨hNot, hRest⟩
      have hHere : t ∉ found := by
        rw [hSame]
        exact hNew t List.mem_cons_self
      have hMore :
          ∀ s, s ∈ found ++ [t] ↔ s ∈ t :: seen := by
        intro s
        rw [List.mem_append, hSame, List.mem_singleton,
          List.mem_cons, or_comm]
      have hFind :
          (Supertypes.subtypes types t).find?
              (fun s => decide (s ∉ t :: seen)) =
            ((below types t).reverse.filter (fun s =>
              decide (s ∉ found ++ [t]))).head? := by
        rw [List.head?_filter, find?_reverse_below]
        simp only [hMore]
      apply Scans.next
      apply Scans.first hHere
      unfold Walk.misplaced?
      rw [hFind, ← List.reverse_reverse (below types t),
        push_reverse, List.append_nil, List.reverse_reverse]
      cases hStack :
          (below types t).reverse.filter (fun s =>
            decide (s ∉ found ++ [t])) with
      | nil =>
          apply ih true hMore ?_ hRest
          intro s hs hSeen
          rcases List.mem_cons.mp hSeen with hEq | hOld
          · exact hNot (hEq ▸ hs)
          · exact hNew s (List.mem_cons_of_mem t hs) hOld
      | cons s rest =>
          have hMem :
              s ∈ (below types t).reverse.filter (fun s =>
                decide (s ∉ found ++ [t])) := by
            rw [hStack]
            exact List.mem_cons_self
          exact .second
            (of_decide_eq_true (List.mem_filter.mp hMem).2)

------------------------------------------------------------
-- Both Phases
------------------------------------------------------------

/- A walk over all types finds what both phases find. -/
theorem sorts_walk
    {types : List TypeDecl}
    (hClosed : Closed (ofTypes types) types.length) :
    Sorts types
      (match Walk.cyclic? (ofTypes types)
          (Supertypes.subtypes types)
          (Walk.all (ofTypes types) types.length) with
        | some t => .error t
        | none =>
            .ok (Walk.all (ofTypes types)
              types.length).left) := by
  have hSearch :
      Searches (above types) (List.range types.length)
        [] [] []
        (searched (ofTypes types)
          (Walk.all (ofTypes types) types.length)) :=
    mirrors (above_eq_reverse types) hClosed _
      (Walk.start types.length) [] [] _
      (Walk.tracks_start types.length) rfl .nil
      (fun _ hs => absurd hs List.not_mem_nil)
      (Walk.agenda_all hClosed)
  have hScan := scans_misplaced? types false
    (fun _ => Iff.rfl)
    (fun t (_ : t ∈ (Walk.all (ofTypes types)
      types.length).left.reverse) => List.not_mem_nil)
    (List.nodup_reverse.mpr (Walk.nodup_left_all hClosed))
  unfold Walk.cyclic?
  unfold searched at hSearch
  cases hSelf :
      Walk.selfSupertype? (ofTypes types)
        (Walk.all (ofTypes types) types.length) with
  | some t =>
      rw [hSelf] at hSearch
      exact .own hSearch
  | none =>
      rw [hSelf] at hSearch
      rw [Option.none_or]
      cases hFound :
          Walk.misplaced? (Supertypes.subtypes types) []
            (Walk.all (ofTypes types)
              types.length).left.reverse with
      | some t =>
          rw [hFound] at hScan
          exact .crossed hSearch hScan
      | none =>
          rw [hFound] at hScan
          exact .sorted hSearch hScan

end Toposort

namespace Hierarchy

/- The hierarchy for what both phases find. -/
def ofSorted
    (types : List TypeDecl) :
    Except TypeId (List TypeId) → Except Defect Hierarchy
| .error t =>
    .error (.inheritanceCycle
      ((types[t]?.map (fun d => d.qualifiedName)).getD ""))
| .ok order => .ok (ofKnown types order)

/- Types with known supertypes are put in order by phases. -/
theorem ofTypes?_eq_ofSorted
    {types : List TypeDecl}
    (hClosed : Closed (ofTypes types) types.length)
    {found : Except TypeId (List TypeId)}
    (hSorts : Toposort.Sorts types found) :
    ofTypes? types = ofSorted types found := by
  have hStrays := (strays_eq_nil_iff types).mpr hClosed
  rw [hSorts.unique (Toposort.sorts_walk hClosed)]
  unfold ofTypes?
  simp only [hStrays, List.head?_nil]
  cases Walk.cyclic? (ofTypes types)
      (Supertypes.subtypes types)
      (Walk.all (ofTypes types) types.length) with
  | some t => rfl
  | none => rfl

end Hierarchy

end JsExport
