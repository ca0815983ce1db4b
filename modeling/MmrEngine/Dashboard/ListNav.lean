import Mathlib.Data.List.Basic
import Mathlib.Order.Lattice

/-!
# Keyboard List Navigation

The reducer behind the lists of the dashboard: a cursor that moves over the
rows and a selection of them, which survive refetches, optimistic removals and
rollbacks.

A row is its id. JavaScript's `null` and a missing optional field are `none`,
and the index of a row that may be absent is an `Option`, where the source has
-1.

## Main definitions

* `ListNavState`, `ListNavAction`: The state and what changes it.
* `successor`: Where the cursor lands when its row disappears.
* `listNavReducer`: One action.
-/

namespace MmrEngine

namespace ListNav

structure ListNavState (Id : Type) where
  /-- Row ids in display order. -/
  ids : List Id
  /-- The row the keyboard is on. -/
  cursor : Option Id
  /-- Selected ids, kept in display order. -/
  selected : List Id
  deriving DecidableEq

inductive ListNavAction (Id : Type) where
  | sync (ids : List Id)
  | move (delta : ℤ)
  | first
  | last
  | set (id : Option Id)
  | toggle (id : Option Id)
  | toggleAll
  | clear
  | remove (ids : List Id)

def initialListNav {Id : Type} : ListNavState Id where
  ids := []
  cursor := none
  selected := []

variable {Id : Type} [DecidableEq Id]

def inOrder (ids subset : List Id) : List Id := ids.filter fun id => id ∈ subset

/-- Where the cursor lands when its row disappears: the row that took its
    place, else the row before it. -/
def successor (oldIds newIds : List Id) (cursor : Option Id) : Option Id :=
  cursor.bind fun cursor =>
    if newIds = [] then none
    else if cursor ∈ newIds then some cursor
    else (oldIds.idxOf? cursor).bind fun oldIndex =>
      let present := fun id => decide (id ∈ newIds)
      ((oldIds.drop (oldIndex + 1)).find? present).or
        (((oldIds.take oldIndex).reverse.find? present).or newIds.head?)

def listNavReducer (state : ListNavState Id) : ListNavAction Id → ListNavState Id
  | .sync ids =>
    if ids = state.ids then state
    else
      { ids := ids
        cursor := successor state.ids ids state.cursor
        selected := inOrder ids state.selected }
  | .move delta =>
    if state.ids = [] then state
    else
      let lastRow : ℤ := state.ids.length - 1
      let next : ℤ :=
        match state.cursor.bind fun cursor => state.ids.idxOf? cursor with
        | none => if 0 < delta then 0 else lastRow
        | some index => min lastRow (max 0 (index + delta))
      { state with cursor := state.ids[next.toNat]? }
  | .first => if state.ids = [] then state else { state with cursor := state.ids.head? }
  | .last => if state.ids = [] then state else { state with cursor := state.ids.getLast? }
  | .set id => if id.any fun id => id ∉ state.ids then state else { state with cursor := id }
  | .toggle id =>
    match id.or state.cursor with
    | none => state
    | some id =>
      if id ∉ state.ids then state
      else if id ∈ state.selected then
        { state with selected := state.selected.filter fun s => s ≠ id }
      else { state with selected := inOrder state.ids (state.selected ++ [id]) }
  | .toggleAll =>
    { state with
      selected := if state.selected.length = state.ids.length ∧ 0 < state.ids.length then []
        else state.ids }
  | .clear => { state with selected := [] }
  | .remove gone =>
    let ids := state.ids.filter fun id => id ∉ gone
    { ids := ids
      cursor := successor state.ids ids state.cursor
      selected := state.selected.filter fun id => id ∉ gone }

end ListNav

end MmrEngine
