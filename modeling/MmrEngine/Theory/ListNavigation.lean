import MmrEngine.Dashboard.ListNav
import Mathlib.Data.List.Nodup

/-!
# The State of a Navigated List

What holds of the cursor and the selection after any actions.

The cursor is on a row of the list and the selection is a part of the list, in
its order. Each action restores this on its own, so it is an invariant of one
step (`valid_step`). What a refetch or a removal does beyond it is said against
the order there was: the cursor goes to the nearest row below that is still
there, else to the nearest above, else to the top (`Lands`), and the selection
loses the rows that are gone.

## Main definitions

* `Valid`: The invariant.
* `Lands`: Where a cursor whose row is gone is to land.
* `Refreshes`: The actions that change the rows.
* `rowsAfter`: The rows after an action.

## Theorems

* `eq_filter_of_sublist`: A part of a list without repetition, by membership.
* `lands_successor`: The successor lands where it is to land.
* `ids_step`: The rows after an action are the ones it is to leave.
* `valid_step`: Every action keeps the invariant.
* `list_nav_stays_valid`: The invariant of every run, and what changes the rows.
-/

namespace MmrEngine

namespace ListNav

variable {Id : Type} [DecidableEq Id]

/-- The cursor is a row, and the selection some of the rows in their order. -/
structure Valid (s : ListNavState Id) : Prop where
  nodup : s.ids.Nodup
  cursor : ∀ c ∈ s.cursor, c ∈ s.ids
  selected : s.selected.Sublist s.ids

/-- An action that changes the rows: a refetch, of rows that differ, or a
    removal. -/
def Refreshes : ListNavAction Id → Prop
  | .sync ids => ids.Nodup
  | .remove _ => True
  | _ => False

/-- The rows there are after an action: those of a refetch, those a removal
    leaves, and otherwise the same ones. -/
def rowsAfter (ids : List Id) : ListNavAction Id → List Id
  | .sync new => new
  | .remove gone => ids.filter fun id => id ∉ gone
  | _ => ids

/-- Where the cursor lands when its row is gone: on the nearest row below that
    is still there, else on the nearest above, else on the first. -/
def Lands (oldIds newIds : List Id) (c : Id) (cursor : Option Id) : Prop :=
  ∀ above below, oldIds = above ++ c :: below →
    (∃ skipped x rest, below = skipped ++ x :: rest ∧ (∀ y ∈ skipped, y ∉ newIds) ∧
        x ∈ newIds ∧ cursor = some x) ∨
      ((∀ y ∈ below, y ∉ newIds) ∧
        ((∃ rest x skipped, above = rest ++ x :: skipped ∧ (∀ y ∈ skipped, y ∉ newIds) ∧
            x ∈ newIds ∧ cursor = some x) ∨
          ((∀ y ∈ above, y ∉ newIds) ∧ cursor = newIds.head?)))

/-- A part of a list without repetition is the list filtered by membership. -/
theorem eq_filter_of_sublist {part l : List Id} (h : part.Sublist l) (hnodup : l.Nodup) :
    part = l.filter fun id => id ∈ part := by
  induction h with
  | slnil => rfl
  | cons a h ih =>
      rw [List.nodup_cons] at hnodup
      have ha : a ∉ _ := fun hmem => hnodup.1 (h.subset hmem)
      rw [List.filter_cons_of_neg (by simpa using ha)]
      exact ih hnodup.2
  | cons_cons a h ih =>
      rename_i part l
      rw [List.nodup_cons] at hnodup
      rw [List.filter_cons_of_pos (by simp)]
      refine congrArg (List.cons a) ((ih hnodup.2).trans (List.filter_congr fun id hid => ?_))
      have hne : id ≠ a := fun heq => hnodup.1 (heq ▸ hid)
      simp [hne]

/-- The rows a filter keeps, of those that were selected. -/
theorem filter_mem_comm {selected ids : List Id} (h : selected.Sublist ids) (hnodup : ids.Nodup)
    (keep : Id → Bool) :
    selected.filter keep = (ids.filter keep).filter fun id => id ∈ selected := by
  have hselected := eq_filter_of_sublist h hnodup
  calc selected.filter keep
      = (ids.filter fun id => id ∈ selected).filter keep := by rw [← hselected]
    _ = (ids.filter keep).filter fun id => id ∈ selected := by
        rw [List.filter_filter, List.filter_filter]
        exact List.filter_congr fun id _ => Bool.and_comm _ _

omit [DecidableEq Id] in
/-- The first row that passes, and what comes before it. -/
theorem find?_split {p : Id → Bool} {l : List Id} {x : Id} (h : l.find? p = some x) :
    ∃ skipped rest, l = skipped ++ x :: rest ∧ (∀ y ∈ skipped, p y = false) ∧ p x = true := by
  rcases List.find?_eq_some_iff_append.mp h with ⟨hx, skipped, rest, hl, hskipped⟩
  exact ⟨skipped, rest, hl, fun y hy => by simpa using hskipped y hy, hx⟩

theorem successor_of_mem {oldIds newIds : List Id} {c : Id} (hc : c ∈ newIds) :
    successor oldIds newIds (some c) = some c := by
  have hne : newIds ≠ [] := List.ne_nil_of_mem hc
  simp [successor, hne, hc]

/-- The index of a row is the number of rows above it. -/
theorem idxOf?_middle {above below : List Id} {c : Id} (hc : c ∉ above) :
    (above ++ c :: below).idxOf? c = some above.length := by
  induction above with
  | nil => simp [List.idxOf?_cons]
  | cons a above ih =>
      rw [List.mem_cons, not_or] at hc
      rw [List.cons_append, List.idxOf?_cons, if_neg (by simpa using Ne.symm hc.1), ih hc.2]
      rfl

/-- The successor of a row that is gone, by the rows below and above it. -/
theorem successor_of_gone {above below newIds : List Id} {c : Id}
    (hnodup : (above ++ c :: below).Nodup) (hc : c ∉ newIds) (hne : newIds ≠ []) :
    successor (above ++ c :: below) newIds (some c) =
      (below.find? fun id => id ∈ newIds).or
        ((above.reverse.find? fun id => id ∈ newIds).or newIds.head?) := by
  have habove : c ∉ above := by
    intro hmem
    exact (List.nodup_append.mp hnodup).2.2 c hmem c List.mem_cons_self rfl
  have hbelow : (above ++ c :: below).drop (above.length + 1) = below := by
    rw [List.append_cons]
    exact List.drop_left' (by simp)
  have hhead : (above ++ c :: below).take above.length = above := List.take_left' rfl
  simp only [successor, Option.bind_some, if_neg hne, if_neg hc, idxOf?_middle habove, hbelow,
    hhead]

/-- A cursor whose row is gone lands where it is to land. -/
theorem lands_successor {oldIds newIds : List Id} {c : Id} (hnodup : oldIds.Nodup)
    (hc : c ∉ newIds) : Lands oldIds newIds c (successor oldIds newIds (some c)) := by
  intro above below hsplit
  by_cases hempty : newIds = []
  · -- In an empty list there is nowhere to land.
    have hnone : successor oldIds newIds (some c) = none := by simp [successor, hempty]
    refine Or.inr ⟨fun y _ => by simp [hempty], Or.inr ⟨fun y _ => by simp [hempty], ?_⟩⟩
    rw [hnone, hempty]
    rfl
  · rw [hsplit] at hnodup ⊢
    rw [successor_of_gone hnodup hc hempty]
    cases hbelow : below.find? fun id => id ∈ newIds with
    | some x =>
        rcases find?_split hbelow with ⟨skipped, rest, hl, hskipped, hx⟩
        exact Or.inl ⟨skipped, x, rest, hl, fun y hy => of_decide_eq_false (hskipped y hy),
          of_decide_eq_true hx, rfl⟩
    | none =>
        have hnone : ∀ y ∈ below, y ∉ newIds := by
          intro y hy
          simpa using List.find?_eq_none.mp hbelow y hy
        refine Or.inr ⟨hnone, ?_⟩
        cases habove : above.reverse.find? fun id => id ∈ newIds with
        | some x =>
            rcases find?_split habove with ⟨skipped, rest, hl, hskipped, hx⟩
            refine Or.inl ⟨rest.reverse, x, skipped.reverse, ?_, fun y hy => ?_,
              of_decide_eq_true hx, rfl⟩
            · rw [← List.reverse_reverse above, hl]
              simp
            · exact of_decide_eq_false (hskipped y (List.mem_reverse.mp hy))
        | none =>
            refine Or.inr ⟨fun y hy => ?_, rfl⟩
            simpa using List.find?_eq_none.mp habove y (List.mem_reverse.mpr hy)

/-- The cursor after the rows changed is one of them. -/
theorem successor_mem {oldIds newIds : List Id} {cursor : Option Id} {c : Id}
    (h : successor oldIds newIds cursor = some c) : c ∈ newIds := by
  cases cursor with
  | none => cases h
  | some old =>
      simp only [successor, Option.bind_some] at h
      by_cases hempty : newIds = []
      · rw [if_pos hempty] at h
        cases h
      rw [if_neg hempty] at h
      by_cases hold : old ∈ newIds
      · rw [if_pos hold, Option.some.injEq] at h
        exact h ▸ hold
      rw [if_neg hold] at h
      rcases Option.bind_eq_some_iff.mp h with ⟨i, _, hfound⟩
      -- Both searches are for rows of the new list.
      rcases Option.or_eq_some_iff.mp hfound with hbelow | ⟨_, hrest⟩
      · have hc := List.find?_some hbelow
        exact of_decide_eq_true hc
      · rcases Option.or_eq_some_iff.mp hrest with habove | ⟨_, hfirst⟩
        · have hc := List.find?_some habove
          exact of_decide_eq_true hc
        · exact List.mem_of_head? hfirst

/-- There is no cursor afterwards only where there was none, or is no row. -/
theorem successor_eq_none_iff {oldIds newIds : List Id} {cursor : Option Id}
    (hcursor : ∀ c ∈ cursor, c ∈ oldIds) :
    successor oldIds newIds cursor = none ↔ newIds = [] ∨ cursor = none := by
  cases cursor with
  | none => exact iff_of_true rfl (Or.inr rfl)
  | some c =>
      simp only [successor, Option.bind_some, reduceCtorEq, or_false]
      by_cases hempty : newIds = []
      · rw [if_pos hempty]
        exact iff_of_true rfl hempty
      rw [if_neg hempty]
      refine iff_of_false (fun h => ?_) hempty
      by_cases hc : c ∈ newIds
      · rw [if_pos hc] at h
        cases h
      rw [if_neg hc] at h
      rcases Option.bind_eq_none_iff.mp h with hnone
      cases hindex : oldIds.idxOf? c with
      | none => exact List.idxOf?_eq_none_iff.mp hindex (hcursor c rfl)
      | some i =>
          have hall := hnone i hindex
          simp only [Option.or_eq_none_iff, List.head?_eq_none_iff] at hall
          exact hempty hall.2.2

/-- The reducer leaves the rows an action is to leave. -/
theorem ids_step (s : ListNavState Id) (action : ListNavAction Id) :
    (listNavReducer s action).ids = rowsAfter s.ids action := by
  cases action with
  | sync ids =>
      simp only [listNavReducer]
      by_cases hsame : ids = s.ids
      · rw [if_pos hsame]
        exact hsame.symm
      · rw [if_neg hsame]
        rfl
  | move delta =>
      simp only [listNavReducer]
      split <;> rfl
  | first =>
      simp only [listNavReducer]
      split <;> rfl
  | last =>
      simp only [listNavReducer]
      split <;> rfl
  | set id =>
      simp only [listNavReducer]
      split <;> rfl
  | toggle id =>
      simp only [listNavReducer]
      cases id.or s.cursor with
      | none => rfl
      | some id =>
          simp only []
          split
          · rfl
          · split <;> rfl
  | toggleAll => rfl
  | clear => rfl
  | remove gone => rfl

/-- What a refetch or a removal leaves: rows without repetition, the successor
    of the cursor, and the selection without the rows that are gone. -/
theorem refresh {s : ListNavState Id} {action : ListNavAction Id} (h : Valid s)
    (haction : Refreshes action) :
    (listNavReducer s action).ids.Nodup ∧
      (listNavReducer s action).cursor
        = successor s.ids (listNavReducer s action).ids s.cursor ∧
      (listNavReducer s action).selected
        = (listNavReducer s action).ids.filter fun id => id ∈ s.selected := by
  have hselected := eq_filter_of_sublist h.selected h.nodup
  cases action with
  | sync ids =>
      simp only [listNavReducer]
      by_cases hsame : ids = s.ids
      · rw [if_pos hsame]
        refine ⟨h.nodup, ?_, hselected⟩
        cases hcursor : s.cursor with
        | none => rfl
        | some c => exact (successor_of_mem (h.cursor c hcursor)).symm
      · rw [if_neg hsame]
        exact ⟨haction, rfl, rfl⟩
  | remove gone =>
      refine ⟨h.nodup.filter _, rfl, ?_⟩
      exact filter_mem_comm h.selected h.nodup _
  | move delta => exact haction.elim
  | first => exact haction.elim
  | last => exact haction.elim
  | set id => exact haction.elim
  | toggle id => exact haction.elim
  | toggleAll => exact haction.elim
  | clear => exact haction.elim

omit [DecidableEq Id] in
theorem valid_initial : Valid (initialListNav : ListNavState Id) where
  nodup := List.nodup_nil
  cursor c hc := by cases hc
  selected := List.Sublist.refl []

omit [DecidableEq Id] in
/-- Actions on the cursor and the selection leave the rows alone. -/
theorem valid_cursor {s : ListNavState Id} (h : Valid s) {cursor : Option Id}
    (hcursor : ∀ c ∈ cursor, c ∈ s.ids) : Valid { s with cursor := cursor } :=
  ⟨h.nodup, hcursor, h.selected⟩

omit [DecidableEq Id] in
theorem valid_selected {s : ListNavState Id} (h : Valid s) {selected : List Id}
    (hselected : selected.Sublist s.ids) : Valid { s with selected := selected } :=
  ⟨h.nodup, h.cursor, hselected⟩

/-- Every action keeps the cursor on a row and the selection among the rows. -/
theorem valid_step {s : ListNavState Id} (h : Valid s) {action : ListNavAction Id}
    (hsync : ∀ ids, action = .sync ids → ids.Nodup) : Valid (listNavReducer s action) := by
  -- New rows come with a cursor and a selection of their own (`refresh`).
  have hrefresh : Refreshes action → Valid (listNavReducer s action) := by
    intro haction
    rcases refresh h haction with ⟨hnodup, hcursor, hselected⟩
    refine ⟨hnodup, fun c hc => ?_, ?_⟩
    · exact successor_mem (hcursor.symm.trans hc)
    · rw [hselected]
      exact List.filter_sublist
  cases action with
  | sync ids => exact hrefresh (hsync ids rfl)
  | remove gone => exact hrefresh trivial
  -- What is moved to is a row, as it was found among them.
  | move delta =>
      simp only [listNavReducer]
      by_cases hempty : s.ids = []
      · rwa [if_pos hempty]
      · rw [if_neg hempty]
        exact valid_cursor h fun c hc => List.mem_of_getElem? hc
  | first =>
      simp only [listNavReducer]
      by_cases hempty : s.ids = []
      · rwa [if_pos hempty]
      · rw [if_neg hempty]
        exact valid_cursor h fun c hc => List.mem_of_head? hc
  | last =>
      simp only [listNavReducer]
      by_cases hempty : s.ids = []
      · rwa [if_pos hempty]
      · rw [if_neg hempty]
        exact valid_cursor h fun c hc => List.mem_of_getLast? hc
  | set id =>
      simp only [listNavReducer]
      by_cases hunknown : (id.any fun id => id ∉ s.ids) = true
      · rwa [if_pos hunknown]
      · rw [if_neg hunknown]
        refine valid_cursor h fun c hc => ?_
        rw [Option.mem_def.mp hc] at hunknown
        simpa using hunknown
  -- Without an id and a cursor nothing is toggled, nor is a row that is gone.
  | toggle id =>
      simp only [listNavReducer]
      cases id.or s.cursor with
      | none => exact h
      | some id =>
          simp only []
          by_cases hunknown : id ∉ s.ids
          · rwa [if_pos hunknown]
          rw [if_neg hunknown]
          by_cases hselected : id ∈ s.selected
          · rw [if_pos hselected]
            exact valid_selected h (List.filter_sublist.trans h.selected)
          · rw [if_neg hselected]
            exact valid_selected h List.filter_sublist
  | toggleAll =>
      refine valid_selected h ?_
      by_cases hall : s.selected.length = s.ids.length ∧ 0 < s.ids.length
      · rw [if_pos hall]
        exact List.nil_sublist _
      · rw [if_neg hall]
  | clear => exact valid_selected h (List.nil_sublist _)

/-- And so does a run of actions. -/
theorem valid_run {actions : List (ListNavAction Id)} {s : ListNavState Id} (h : Valid s)
    (hsync : ∀ ids, .sync ids ∈ actions → ids.Nodup) :
    Valid (actions.foldl listNavReducer s) := by
  induction actions generalizing s with
  | nil => exact h
  | cons action actions ih =>
      refine ih (valid_step h fun ids heq => hsync ids ?_) fun ids hids => ?_
      · rw [heq]
        exact List.mem_cons_self
      · exact hsync ids (List.mem_cons_of_mem _ hids)

/-- After any actions from the initial state: the cursor is a row or there is
    none, and the selection is a part of the rows without repetition and in
    their order. Whatever comes next, the rows are then those of the refetch,
    those the removal leaves, or the same. After a refetch or a removal a cursor
    that is still a row stays, one that is not lands where it is to land, there
    is none exactly if there was none or no row is left, and the selection is
    the old one without the rows that are gone. -/
theorem list_nav_stays_valid (actions : List (ListNavAction Id))
    (hsync : ∀ ids, .sync ids ∈ actions → ids.Nodup) :
    let s := actions.foldl listNavReducer initialListNav
    (∀ c, s.cursor = some c → c ∈ s.ids) ∧ s.selected.Sublist s.ids ∧ s.selected.Nodup ∧
      (∀ action, (listNavReducer s action).ids = rowsAfter s.ids action) ∧
      ∀ action, Refreshes action →
        let s' := listNavReducer s action
        (∀ c, s.cursor = some c → c ∈ s'.ids → s'.cursor = some c) ∧
          (∀ c, s.cursor = some c → c ∉ s'.ids → Lands s.ids s'.ids c s'.cursor) ∧
          (s'.cursor = none ↔ s'.ids = [] ∨ s.cursor = none) ∧
          s'.selected = s'.ids.filter fun id => id ∈ s.selected := by
  intro s
  have hvalid : Valid s := valid_run valid_initial hsync
  refine ⟨hvalid.cursor, hvalid.selected, hvalid.selected.nodup hvalid.nodup, ids_step s, ?_⟩
  intro action haction s'
  rcases refresh hvalid haction with ⟨_, hcursor, hselected⟩
  refine ⟨fun c hc hmem => ?_, fun c hc hgone => ?_, ?_, hselected⟩
  · rw [hcursor, hc]
    exact successor_of_mem hmem
  · rw [hcursor, hc]
    exact lands_successor hvalid.nodup hgone
  · rw [hcursor]
    exact successor_eq_none_iff hvalid.cursor

/-- The cursor's row and the one below are resolved, and a refetch brings both
    back in another order. -/
theorem list_nav_stays_valid_rollback :
    let s := [ListNavAction.sync [1, 2, 3, 4], .set (some 2), .toggleAll, .remove [2, 3]].foldl
      listNavReducer initialListNav
    s = { ids := [1, 4], cursor := some 4, selected := [1, 4] } ∧
      (listNavReducer s (.sync [3, 2, 1])).ids = [3, 2, 1] ∧
      (listNavReducer s (.sync [3, 2, 1])).selected = [1] ∧
      Lands s.ids [3, 2, 1] 4 (listNavReducer s (.sync [3, 2, 1])).cursor := by
  have hrun := (list_nav_stays_valid
    [ListNavAction.sync [1, 2, 3, 4], .set (some 2), .toggleAll, .remove [2, 3]]
    (by simp)).2.2.2
  have hrefetch := hrun.2 (.sync [3, 2, 1]) (show [3, 2, 1].Nodup by decide)
  exact ⟨by decide, hrun.1 (.sync [3, 2, 1]), by decide, hrefetch.2.1 4 rfl (by decide)⟩

end ListNav

end MmrEngine
