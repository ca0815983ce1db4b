import MmrEngine.Connectors.Polling

/-!
# A Backfill Is Complete or Fails

What the two listings return against a server that pages a fixed list.

Both clients are the same loop over pages, so for each it is enough to say what
one page gives: a stretch of what the server selects for the window, for
Flutterwave trimmed to the window, and whether it is the last. From there the
loop is known for a list of any length, and a listing that returns has the
items of the first `maxPages` pages.

So the listing is complete or fails exactly if one of the pages it asks for
fails, or the server selects all that lies in the window and none of it comes
after these pages. Beyond them the clients stop with a warning and return what
they have.

## Main definitions

* `Server`: A server that pages a fixed list, with its answers to each client.
* `CompleteOrFails`: Nothing is returned that is short of the window.
* `createdWithin`: A transaction was created in the window.

## Theorems

* `paystack_pages`, `flutterwave_pages`: What a page gives.
* `trim_readable`, `trim_unreadable`: Trimming keeps the window or raises.
* `backfill_complete_iff`: When a listing is complete or fails, for each client.
-/

namespace MmrEngine

namespace Polling

open Paging Datetime

/-- A server that pages a fixed list of transactions. What `from` and `to`
    select of it is the server's business, and so is which requests fail. -/
structure Server where
  transactions : List Json
  selects : String → String → Json → Bool
  pageSize : Nat
  sized : 0 < pageSize
  fails : Nat → Option PollError

namespace Server

def selected (s : Server) (fromDate toDate : String) : List Json :=
  s.transactions.filter (s.selects fromDate toDate)

/-- The answers to the Paystack client: pages of the size it asks for. -/
def paystack (s : Server) : Api := fun r =>
  match s.fails r.page with
  | some e => .error e
  | none => .ok (.obj [("data",
      .arr (stretch (s.selected r.from_ r.to_) (r.perPage.getD 50) (r.page - 1)))])

/-- How many pages of the server's own size there are. -/
def pageCount (s : Server) (fromDate toDate : String) : Nat :=
  ((s.selected fromDate toDate).length + s.pageSize - 1) / s.pageSize

/-- A body with the items of a page and how many pages there are. -/
def pageBody (items : List Json) (total : Nat) : Json :=
  .obj [("data", .arr items), ("meta", .obj [("page_info", .obj [("total_pages", .int total)])])]

/-- The answers to the Flutterwave client: pages of the server's own size, and
    how many there are. -/
def flutterwave (s : Server) : Api := fun r =>
  match s.fails r.page with
  | some e => .error e
  | none => .ok (pageBody (stretch (s.selected r.from_ r.to_) s.pageSize (r.page - 1))
      (s.pageCount r.from_ r.to_))

end Server

/-- The listing raises, or what it returns has everything that counts of the
    list, as often and in the order it has there. -/
def CompleteOrFails (counts : Json → Bool) (transactions : List Json)
    (outcome : Except PollError (List Json)) : Prop :=
  ∀ result, outcome = .ok result → result.filter counts = transactions.filter counts

/-! ### Paystack -/

/-- A page of the Paystack client: its stretch of what is selected, the last
    one if it is short. -/
theorem paystack_pages (s : Server) (since until_ : Datetime) :
    Pages (Paystack.readPage s.paystack since until_)
      (s.selected (strftimeSecond since) (strftimeSecond until_)) 100 (fun _ => true)
      (fun k => (stretch (s.selected (strftimeSecond since) (strftimeSecond until_)) 100 k).length
        < 100) := by
  refine ⟨fun k => ?_, fun k hlast => ?_⟩
  · cases hfails : s.fails (k + 1) with
    | some e =>
        refine Or.inl ⟨e, ?_⟩
        simp only [Paystack.readPage, Paystack.listTransactions, Server.paystack, hfails]
        rfl
    | none =>
        refine Or.inr ?_
        simp only [Paystack.readPage, Paystack.listTransactions, Server.paystack, hfails,
          List.filter_true]
        rfl
  · have hshort := of_decide_eq_true hlast
    rw [stretch, List.length_take, List.length_drop] at hshort
    omega

theorem paystack_read_fails_iff (s : Server) (since until_ : Datetime) (k : Nat) :
    (∃ e, Paystack.readPage s.paystack since until_ (k + 1) = .error e) ↔
      (s.fails (k + 1)).isSome := by
  cases hfails : s.fails (k + 1) with
  | some e =>
      refine iff_of_true ⟨e, ?_⟩ rfl
      simp only [Paystack.readPage, Paystack.listTransactions, Server.paystack, hfails]
      rfl
  | none =>
      refine iff_of_false (fun h => ?_) Bool.false_ne_true
      rcases h with ⟨e, he⟩
      simp only [Paystack.readPage, Paystack.listTransactions, Server.paystack, hfails] at he
      cases he

/-- The Paystack client asks for a page if all before it are full. -/
theorem paystack_asked_iff (xs : List Json) (j : Nat) :
    Asked (fun k => decide ((stretch xs 100 k).length < 100)) 0 j ↔ j * 100 ≤ xs.length := by
  have hfull : ∀ k, (stretch xs 100 k).length < 100 ↔ xs.length < (k + 1) * 100 := by
    intro k
    rw [stretch, List.length_take, List.length_drop]
    omega
  constructor
  · intro h
    cases j with
    | zero => omega
    | succ j =>
        have hlast := of_decide_eq_false (h j (Nat.zero_le j) (Nat.lt_succ_self j))
        rw [hfull] at hlast
        omega
  · intro h i _ hij
    refine decide_eq_false ?_
    rw [hfull]
    have hmul : (i + 1) * 100 ≤ j * 100 := Nat.mul_le_mul_right 100 hij
    omega

/-- What a loop over the pages of a selection returns is complete exactly when
    nothing that counts is left out or comes too late. -/
theorem completeOrFails_iff {s : Server} {fromDate toDate : String} {counts keep : Json → Bool}
    {size : Nat} {last : Nat → Bool} {fetch : Nat → Except PollError (List Json × Bool)}
    (hpages : Pages fetch (s.selected fromDate toDate) size keep last)
    (hkeep : ∀ tx, counts tx = true → keep tx = true) :
    CompleteOrFails counts s.transactions (collect fetch maxPages 1 []) ↔
      Fails fetch last maxPages 0 ∨
        ((∀ tx ∈ s.transactions, counts tx = true → s.selects fromDate toDate tx = true) ∧
          ∀ tx ∈ (s.selected fromDate toDate).drop (maxPages * size), counts tx = false) := by
  rw [Server.selected, ← kept_take_eq_iff]
  -- What is not kept does not count either.
  have hcounts : ∀ xs : List Json, (xs.filter keep).filter counts = xs.filter counts := by
    intro xs
    rw [List.filter_filter]
    refine List.filter_congr fun tx _ => ?_
    cases h : counts tx with
    | true => rw [hkeep tx h, Bool.and_true]
    | false => rfl
  rcases collect_of_pages hpages maxPages 0 [] with ⟨hfails, e, he⟩ | ⟨hfine, hok⟩
  · -- A listing that fails claims nothing.
    refine iff_of_true (fun result hresult => ?_) (Or.inl hfails)
    rw [he] at hresult
    cases hresult
  · rw [Nat.zero_mul, List.drop_zero, List.nil_append] at hok
    -- One that returns has returned the first pages of the selection.
    constructor
    · intro h
      refine Or.inr ?_
      have hresult := h _ hok
      rw [hcounts] at hresult
      exact hresult
    · intro h result hresult
      rw [hok] at hresult
      rw [← Except.ok.inj hresult, hcounts]
      exact h.resolve_left hfine

/-- A page the Paystack client asks for fails. -/
theorem paystack_fails_iff (s : Server) (since until_ : Datetime) :
    Fails (Paystack.readPage s.paystack since until_)
        (fun k => (stretch (s.selected (strftimeSecond since) (strftimeSecond until_)) 100
          k).length < 100) maxPages 0 ↔
      ∃ page, page < maxPages ∧
        page * 100 ≤ (s.selected (strftimeSecond since) (strftimeSecond until_)).length ∧
        (s.fails (page + 1)).isSome := by
  unfold Fails
  refine exists_congr fun j => ?_
  rw [paystack_asked_iff, paystack_read_fails_iff, Nat.zero_add]
  simp

/-! ### Flutterwave -/

section Flutterwave

variable [PollingLibrary]

/-- The transaction was created in the window. -/
def createdWithin (since until_ : Datetime) (tx : Json) : Bool :=
  match Flutterwave.createdAt tx with
  | .ok (some t) => Flutterwave.within since until_ t
  | _ => false

/-- `created_at` is no timestamp with an offset. -/
def Unreadable (tx : Json) : Prop := ∃ e, Flutterwave.createdAt tx = .error e

theorem trim_unreadable (since until_ : Datetime) {items : List Json}
    (h : ∃ tx ∈ items, Unreadable tx) : ∃ e, Flutterwave.trim since until_ items = .error e := by
  induction items with
  | nil =>
      rcases h with ⟨tx, htx, -⟩
      cases htx
  | cons tx rest ih =>
      unfold Flutterwave.trim
      cases hcreated : Flutterwave.createdAt tx with
      | error e => exact ⟨e, rfl⟩
      | ok created =>
          -- The first is readable, so it is one of the others that is not.
          have hrest : ∃ other ∈ rest, Unreadable other := by
            rcases h with ⟨other, hother, e, he⟩
            rcases List.mem_cons.mp hother with rfl | hmem
            · rw [hcreated] at he
              cases he
            · exact ⟨other, hmem, e, he⟩
          rcases ih hrest with ⟨e, he⟩
          refine ⟨e, ?_⟩
          rw [he]
          rfl

/-- Where every item is readable, trimming keeps what was created in the
    window. -/
theorem trim_readable (since until_ : Datetime) {items : List Json}
    (h : ¬ ∃ tx ∈ items, Unreadable tx) :
    Flutterwave.trim since until_ items = .ok (items.filter (createdWithin since until_)) := by
  induction items with
  | nil => rfl
  | cons tx rest ih =>
      have hrest : ¬ ∃ other ∈ rest, Unreadable other := by
        rintro ⟨other, hother, hunreadable⟩
        exact h ⟨other, List.mem_cons_of_mem _ hother, hunreadable⟩
      unfold Flutterwave.trim
      -- An item without a creation time is left out, one with a time by the time.
      cases hcreated : Flutterwave.createdAt tx with
      | error e => exact absurd ⟨tx, List.mem_cons_self, e, hcreated⟩ h
      | ok created =>
          have hwithin : createdWithin since until_ tx
              = created.any (Flutterwave.within since until_) := by
            unfold createdWithin
            rw [hcreated]
            cases created with
            | none => rfl
            | some t => rfl
          rw [ih hrest, List.filter_cons, hwithin]
          cases hkept : created.any (Flutterwave.within since until_) with
          | true => simp [bind, Except.bind, pure, Except.pure, hkept]
          | false => simp [bind, Except.bind, pure, Except.pure, hkept]

omit [PollingLibrary] in
theorem attr_data_pageBody (items : List Json) (total : Nat) :
    attr (Server.pageBody items total) "data" = .ok (.arr items) := rfl

omit [PollingLibrary] in
theorem iterate_arr_orElse (items : List Json) :
    iterate ((Json.arr items).orElse (.arr [])) = .ok items := by
  cases items with
  | nil => rfl
  | cons tx items => rfl

/-- A list of no page still has one to ask for. -/
theorem totalPages_pageBody (items : List Json) (total : Nat) :
    Flutterwave.totalPages (Server.pageBody items total) = .ok (max 1 total : Nat) := by
  have hmeta : attr (Server.pageBody items total) "meta"
      = .ok (.obj [("page_info", .obj [("total_pages", .int total)])]) := rfl
  have hinfo : attr (.obj [("page_info", .obj [("total_pages", .int total)])]) "page_info"
      = .ok (.obj [("total_pages", .int total)]) := rfl
  have htotal : attr (.obj [("total_pages", .int total)]) "total_pages" = .ok (.int total) := rfl
  have hint : Flutterwave.totalPages (Server.pageBody items total)
      = Flutterwave.pyInt ((Json.int total).orElse (.int 1)) := by
    simp only [Flutterwave.totalPages, hmeta, bind, Except.bind, Json.orElse, Json.truthy,
      List.isEmpty_cons, Bool.not_false, if_true, hinfo, htotal]
  rw [hint]
  cases total with
  | zero => rfl
  | succ total =>
      have htruthy : (Json.int ((total + 1 : Nat) : ℤ)).orElse (.int 1)
          = .int ((total + 1 : Nat) : ℤ) := if_pos rfl
      rw [htruthy, max_eq_right (by omega)]
      rfl

/-- What the Flutterwave client makes of a page: its items trimmed, the last one
    if there are no more. -/
theorem flutterwave_read (s : Server) (since until_ : Datetime) (k : Nat) :
    Flutterwave.readPage s.flutterwave since until_ (k + 1)
      = match s.fails (k + 1) with
        | some e => .error e
        | none => (Flutterwave.trim since until_ (stretch
            (s.selected (strftimeDate since) (strftimeDate until_)) s.pageSize k)).map fun kept =>
              (kept, decide (max 1 (s.pageCount (strftimeDate since) (strftimeDate until_))
                ≤ k + 1)) := by
  cases hfails : s.fails (k + 1) with
  | some e =>
      simp only [Flutterwave.readPage, Server.flutterwave, hfails]
      rfl
  | none =>
      simp only [Flutterwave.readPage, Server.flutterwave, hfails, Nat.add_sub_cancel, bind,
        Except.bind, attr_data_pageBody, iterate_arr_orElse, totalPages_pageBody]
      cases Flutterwave.trim since until_ (stretch
          (s.selected (strftimeDate since) (strftimeDate until_)) s.pageSize k) with
      | error e => rfl
      | ok kept =>
          simp only [Except.map, pure, Except.pure, Nat.cast_le]

theorem flutterwave_read_fails_iff (s : Server) (since until_ : Datetime) (k : Nat) :
    (∃ e, Flutterwave.readPage s.flutterwave since until_ (k + 1) = .error e) ↔
      (s.fails (k + 1)).isSome ∨ ∃ tx ∈ stretch
        (s.selected (strftimeDate since) (strftimeDate until_)) s.pageSize k, Unreadable tx := by
  rw [flutterwave_read]
  cases hfails : s.fails (k + 1) with
  | some e => exact iff_of_true ⟨e, rfl⟩ (Or.inl rfl)
  | none =>
      by_cases h : ∃ tx ∈ stretch (s.selected (strftimeDate since) (strftimeDate until_))
          s.pageSize k, Unreadable tx
      · rcases trim_unreadable since until_ h with ⟨e, he⟩
        refine iff_of_true ⟨e, ?_⟩ (Or.inr h)
        rw [he]
        rfl
      · refine iff_of_false ?_ (by simpa using h)
        rintro ⟨e, he⟩
        rw [trim_readable since until_ h] at he
        cases he

/-- A page of the Flutterwave client: its stretch of what is selected, trimmed
    to the window, the last one if there are no more. -/
theorem flutterwave_pages (s : Server) (since until_ : Datetime) :
    Pages (Flutterwave.readPage s.flutterwave since until_)
      (s.selected (strftimeDate since) (strftimeDate until_)) s.pageSize
      (createdWithin since until_)
      (fun k => max 1 (s.pageCount (strftimeDate since) (strftimeDate until_)) ≤ k + 1) := by
  refine ⟨fun k => ?_, fun k hlast => ?_⟩
  · by_cases hfails : ∃ e, Flutterwave.readPage s.flutterwave since until_ (k + 1) = .error e
    · exact Or.inl hfails
    · refine Or.inr ?_
      rw [flutterwave_read_fails_iff, not_or] at hfails
      have hnone : s.fails (k + 1) = none := by simpa using hfails.1
      rw [flutterwave_read, hnone]
      simp only [trim_readable since until_ hfails.2, Except.map]
  · have hcount := le_trans (le_max_right _ _) (of_decide_eq_true hlast)
    rw [Server.pageCount, Nat.div_le_iff_le_mul_add_pred s.sized] at hcount
    have hcomm : s.pageSize * (k + 1) = (k + 1) * s.pageSize := Nat.mul_comm _ _
    have hsized := s.sized
    omega

omit [PollingLibrary] in
/-- The Flutterwave client asks for the first page, and for one that has
    anything in it. -/
theorem flutterwave_asked_iff (s : Server) (fromDate toDate : String) (j : Nat) :
    Asked (fun k => decide (max 1 (s.pageCount fromDate toDate) ≤ k + 1)) 0 j ↔
      j = 0 ∨ j * s.pageSize < (s.selected fromDate toDate).length := by
  -- Page `k + 1` is not the last exactly when items are left after it.
  have hmore : ∀ k, ¬ max 1 (s.pageCount fromDate toDate) ≤ k + 1 ↔
      (k + 1) * s.pageSize < (s.selected fromDate toDate).length := by
    intro k
    have hdiv : ((s.selected fromDate toDate).length + s.pageSize - 1) / s.pageSize ≤ k + 1 ↔
        (s.selected fromDate toDate).length + s.pageSize - 1
          ≤ s.pageSize * (k + 1) + (s.pageSize - 1) := Nat.div_le_iff_le_mul_add_pred s.sized
    have hcomm : s.pageSize * (k + 1) = (k + 1) * s.pageSize := Nat.mul_comm _ _
    have hsized := s.sized
    rw [max_le_iff, Server.pageCount, hdiv]
    omega
  constructor
  · intro h
    cases j with
    | zero => exact Or.inl rfl
    | succ j =>
        have hlast := of_decide_eq_false (h j (Nat.zero_le j) (Nat.lt_succ_self j))
        exact Or.inr ((hmore j).mp hlast)
  · intro h i _ hij
    refine decide_eq_false ((hmore i).mpr ?_)
    -- The pages before one with items in it are full.
    have hlong := h.resolve_left (by omega)
    have hmul : (i + 1) * s.pageSize ≤ j * s.pageSize := Nat.mul_le_mul_right _ hij
    omega

/-- A page the Flutterwave client asks for fails, or has an item it cannot
    read. -/
theorem flutterwave_fails_iff (s : Server) (since until_ : Datetime) :
    Fails (Flutterwave.readPage s.flutterwave since until_)
        (fun k => max 1 (s.pageCount (strftimeDate since) (strftimeDate until_)) ≤ k + 1)
        maxPages 0 ↔
      ∃ page, page < maxPages ∧ (page = 0 ∨ page * s.pageSize
          < (s.selected (strftimeDate since) (strftimeDate until_)).length) ∧
        ((s.fails (page + 1)).isSome ∨ ∃ tx ∈ stretch
          (s.selected (strftimeDate since) (strftimeDate until_)) s.pageSize page,
          Unreadable tx) := by
  unfold Fails
  refine exists_congr fun j => ?_
  rw [flutterwave_asked_iff, flutterwave_read_fails_iff, Nat.zero_add]
  simp

end Flutterwave

/-- A server with any list of transactions and any window, whatever counts as
    being in it for Paystack and by `created_at` for Flutterwave. A listing is
    complete or fails exactly if a page it asks for fails or, for Flutterwave,
    has an item it cannot read, or what the server selects for the window leaves
    out nothing that is in it and has nothing that is after the first 200
    pages. -/
theorem backfill_complete_iff [PollingLibrary] (s : Server) (since until_ : Datetime) :
    (∀ counts : Json → Bool,
      CompleteOrFails counts s.transactions
          (Paystack.listAllSuccessful s.paystack since until_) ↔
        (∃ page, page < 200 ∧
          page * 100 ≤ (s.selected (strftimeSecond since) (strftimeSecond until_)).length ∧
          (s.fails (page + 1)).isSome) ∨
        ((∀ tx ∈ s.transactions, counts tx = true →
            s.selects (strftimeSecond since) (strftimeSecond until_) tx = true) ∧
          ∀ tx ∈ (s.selected (strftimeSecond since) (strftimeSecond until_)).drop (200 * 100),
            counts tx = false)) ∧
    (CompleteOrFails (createdWithin since until_) s.transactions
        (Flutterwave.listAllSuccessful s.flutterwave since until_) ↔
      (∃ page, page < 200 ∧ (page = 0 ∨ page * s.pageSize
          < (s.selected (strftimeDate since) (strftimeDate until_)).length) ∧
        ((s.fails (page + 1)).isSome ∨ ∃ tx ∈ stretch
          (s.selected (strftimeDate since) (strftimeDate until_)) s.pageSize page,
          Unreadable tx)) ∨
      ((∀ tx ∈ s.transactions, createdWithin since until_ tx = true →
          s.selects (strftimeDate since) (strftimeDate until_) tx = true) ∧
        ∀ tx ∈ (s.selected (strftimeDate since) (strftimeDate until_)).drop (200 * s.pageSize),
          createdWithin since until_ tx = false)) := by
  refine ⟨fun counts => ?_, ?_⟩
  · have hkeep : ∀ tx, counts tx = true → (fun _ : Json => true) tx = true := fun _ _ => rfl
    have h := completeOrFails_iff (paystack_pages s since until_) hkeep
    rw [paystack_fails_iff] at h
    exact h
  · have h := completeOrFails_iff (flutterwave_pages s since until_) fun _ h => h
    rw [flutterwave_fails_iff] at h
    exact h

/-- A server with one transaction more than 200 pages hold, all in any window. -/
def busyServer : Server where
  transactions := (List.range 20001).map fun n : Nat => .obj [("id", .int (n : ℤ))]
  selects _ _ _ := true
  pageSize := 100
  sized := by decide
  fails _ := none

/-- The Paystack client returns 20000 of the 20001 transactions, and raises
    nothing. -/
theorem backfill_truncated :
    (∃ result, Paystack.listAllSuccessful busyServer.paystack (.ofInstant 0) (.ofInstant 1)
        = .ok result ∧ result.length = 20000 ∧ busyServer.transactions.length = 20001) ∧
      ¬ CompleteOrFails (fun _ => true) busyServer.transactions
        (Paystack.listAllSuccessful busyServer.paystack (.ofInstant 0) (.ofInstant 1)) := by
  have hlength : busyServer.transactions.length = 20001 := by
    rw [busyServer, List.length_map, List.length_range]
  have hselected : ∀ fromDate toDate,
      busyServer.selected fromDate toDate = busyServer.transactions :=
    fun _ _ => List.filter_true _
  have hreturns : ∃ result,
      Paystack.listAllSuccessful busyServer.paystack (.ofInstant 0) (.ofInstant 1) = .ok result ∧
        result.length = 20000 := by
    rcases collect_of_pages (paystack_pages busyServer (.ofInstant 0) (.ofInstant 1)) maxPages 0 []
      with ⟨hfails, -⟩ | ⟨-, hok⟩
    · rcases (paystack_fails_iff _ _ _).mp hfails with ⟨page, -, -, hsome⟩
      cases hsome
    · refine ⟨_, hok, ?_⟩
      rw [List.nil_append, hselected, List.filter_true, Nat.zero_mul, List.drop_zero,
        List.length_take, hlength]
      rfl
  rcases hreturns with ⟨result, hresult, hshort⟩
  refine ⟨⟨result, hresult, hshort, hlength⟩, fun hcomplete => ?_⟩
  have hall := congrArg List.length (hcomplete result hresult)
  rw [List.filter_true, List.filter_true, hshort, hlength] at hall
  omega

end Polling

end MmrEngine
