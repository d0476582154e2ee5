import MycSigner.Admin.Cursors
import MycSigner.Governance.Invariant
import MycSigner.Lib.Keyset
import MycSigner.Lib.Traverse
import MycSigner.Sessions.SoleSession
import Mathlib.Order.Interval.Finset.Nat

/-!
# The audit log, page by page

A page of the audit log is bounded by a snapshot of the sequence, which the first page takes
and its cursor carries on.  Records that are added later have larger sequences, so that a walk
over the pages reads the log as it was at the snapshot.
-/

namespace MycSigner

open Transaction

/-- Validated audit page limit. -/
structure AuditPageLimit where
  get : ℕ
  pos : 0 < get
  maximum : get ≤ 200

/-- Immutable bounded audit page. -/
structure AuditPage where
  snapshotSequence : ℕ
  items : List AuditRecord
  nextBeforeSequence : Option ℕ

/-- The query of an administrator; `MycAdminAuditQuery::new` refuses a range that is empty by its
bounds. -/
structure AdminAuditQuery where
  limit : AuditPageLimit
  snapshotSequence : Option ℕ
  beforeSequence : Option ℕ
  filter : AuditFilter
  ordered : ∀ first ∈ filter.fromUnixMs, ∀ last ∈ filter.toUnixMs, first ≤ last

/-- The `WHERE` clauses of a filter; a clause without a value holds. -/
def AuditFilter.admits (filter : AuditFilter) (row : AuditRow) : Bool :=
  filter.fromUnixMs.all (fun first => first ≤ row.occurredAt.get) &&
    filter.toUnixMs.all (fun last => row.occurredAt.get ≤ last) &&
    filter.kind.all (fun kind => row.auditKind == kind) &&
    filter.outcome.all (fun outcome => row.outcome == outcome)

/-- The page of the records that meet a condition. -/
def auditPage (s : Store) (limit : AuditPageLimit) (requestedSnapshot before : Option ℕ)
    (matching : AuditRow → Bool) : Except OperationError AuditPage := do
  let highWater := s.nextAuditSequence
  let snapshot := requestedSnapshot.getD highWater
  -- `u64::saturating_add`
  let above := min (snapshot + 1) (2 ^ 64 - 1)
  .require (¬ (highWater < snapshot ∨ ∃ value ∈ before, value = 0 ∨ above < value)) .binding
  let before := before.getD above
  -- SQLite's parameters
  .require (snapshot ≤ i64Max ∧ before ≤ i64Max) .binding
  let rows := (Table.ordered (fun left right => decide (right.auditSequence ≤ left.auditSequence))
    (s.audit.filter fun row => decide (row.auditSequence ≤ snapshot) &&
      decide (row.auditSequence < before) && matching row)).take (limit.get + 1)
  let items ← (rows.take limit.get).mapM fun row => do
    .ofOption .binding (← readAuditById s row.auditId)
  .ok { snapshotSequence := snapshot, items
        nextBeforeSequence :=
          if limit.get < rows.length then items.getLast?.map AuditRecord.sequence else none }

/-- `read_audit_page` -/
def readAuditPage (s : Store) (limit : AuditPageLimit) (requestedSnapshot before : Option ℕ) :
    Except OperationError AuditPage :=
  auditPage s limit requestedSnapshot before fun _ => true

/-- `read_admin_audit_page` -/
def readAdminAuditPage (s : Store) (query : AdminAuditQuery) : Except OperationError AuditPage :=
  auditPage s query.limit query.snapshotSequence query.beforeSequence query.filter.admits

/-- The query that continues at a cursor. -/
def AdminAuditQuery.continuedAt (query : AdminAuditQuery) (cursor : Option AuditCursor) :
    AdminAuditQuery :=
  { query with
    snapshotSequence := cursor.map AuditCursor.snapshot
    beforeSequence := cursor.map AuditCursor.before }

/-- The cursor of the page after a page. -/
def AuditPage.cursor (page : AuditPage) : Option AuditCursor :=
  page.nextBeforeSequence.map fun before => ⟨page.snapshotSequence, before⟩

/-- One page of a walk over stores that change between the pages. -/
def auditReader (read : Store → Option AuditCursor → Except OperationError AuditPage)
    (stores : ℕ → Store) (number : ℕ) (cursor : Option AuditCursor) :
    Except OperationError (List AuditRecord × Option AuditCursor) := do
  let page ← read (stores number) cursor
  .ok (page.items, page.cursor)

/-- All pages of a query; the first takes the snapshot. -/
def adminAuditWalk (query : AdminAuditQuery) (stores : ℕ → Store) (pages : ℕ) :
    Except OperationError (Option (List AuditRecord)) :=
  Keyset.walk (auditReader (fun s cursor => readAdminAuditPage s (query.continuedAt cursor)) stores)
    pages 0 none

/-- All pages of the log; the first takes the snapshot. -/
def auditWalk (limit : AuditPageLimit) (stores : ℕ → Store) (pages : ℕ) :
    Except OperationError (Option (List AuditRecord)) :=
  Keyset.walk (auditReader (fun s cursor => readAuditPage s limit
    (cursor.map AuditCursor.snapshot) (cursor.map AuditCursor.before)) stores) pages 0 none

/-! ## The page as a page of a table -/

/-- Later records come first. -/
def AuditRow.recency (row : AuditRow) : ℕᵒᵈ := OrderDual.toDual row.auditSequence

theorem AuditRow.recency_le :
    (fun left right : AuditRow => decide (right.auditSequence ≤ left.auditSequence)) =
      fun left right => decide (left.recency ≤ right.recency) := by
  funext left right
  exact decide_eq_decide.mpr Iff.rfl

def AuditCursor.position (cursor : AuditCursor) : ℕᵒᵈ := OrderDual.toDual cursor.before

/-- The records up to a snapshot that meet a condition. -/
def Store.auditUpTo (s : Store) (snapshot : ℕ) (matching : AuditRow → Bool) : List AuditRow :=
  s.audit.filter fun row => decide (row.auditSequence ≤ snapshot) && matching row

/-- A record as it is read. -/
def Store.auditRecord (s : Store) (row : AuditRow) : AuditRecord := row.record (s.linkOf row)

theorem AuditInv.recency_unique {s : Store} (inv : AuditInv s) (snapshot : ℕ)
    (matching : AuditRow → Bool) :
    Table.Unique AuditRow.recency (s.auditUpTo snapshot matching) :=
  inv.sequences.sublist (List.filter_sublist.map _)

section
variable {s : Store} {limit : AuditPageLimit} {matching : AuditRow → Bool} {snapshot before : ℕ}

/-- A page within its bounds is a page of the records up to the snapshot. -/
theorem auditPage_eq (inv : AuditInv s) {requestedSnapshot requestedBefore : Option ℕ}
    (after : Option ℕᵒᵈ) (hsnapshot : requestedSnapshot.getD s.nextAuditSequence = snapshot)
    (hhigh : snapshot ≤ s.nextAuditSequence)
    (hvalid : ∀ value ∈ requestedBefore, value ≠ 0 ∧ value ≤ min (snapshot + 1) (2 ^ 64 - 1))
    (hbefore : requestedBefore.getD (min (snapshot + 1) (2 ^ 64 - 1)) = before)
    (hsqlite : before ≤ i64Max) (hless : snapshot ≤ i64Max)
    (hafter : ∀ row : AuditRow, row.auditSequence ≤ snapshot →
      (row.auditSequence < before ↔ ∀ bound ∈ after, bound < row.recency)) :
    auditPage s limit requestedSnapshot requestedBefore matching =
      .ok { snapshotSequence := snapshot
            items := (Keyset.page AuditRow.recency limit.get after
              (s.auditUpTo snapshot matching)).1.map s.auditRecord
            nextBeforeSequence := (Keyset.page AuditRow.recency limit.get after
              (s.auditUpTo snapshot matching)).2.map OrderDual.ofDual } := by
  have hrows : (s.audit.filter fun row => decide (row.auditSequence ≤ snapshot) &&
      decide (row.auditSequence < before) && matching row) =
        (s.auditUpTo snapshot matching).filter fun row =>
          decide (∀ bound ∈ after, bound < row.recency) := by
    rw [Store.auditUpTo, List.filter_filter]
    refine List.filter_congr fun row _ => ?_
    by_cases hle : row.auditSequence ≤ snapshot
    · have := hafter row hle
      simp only [decide_eq_decide.mpr this, hle, decide_true, Bool.true_and]
    · simp [hle]
  have hread : ∀ row ∈ (Keyset.page AuditRow.recency limit.get after
      (s.auditUpTo snapshot matching)).1,
      (do Except.ofOption OperationError.binding (← readAuditById s row.auditId)) =
        .ok (s.auditRecord row) := by
    intro row hrow
    have hmem : row ∈ s.audit := (List.mem_filter.mp (Keyset.mem_of_mem_page hrow).1).1
    rw [inv.readable hmem]
    rfl
  have hrequire : ¬ (s.nextAuditSequence < snapshot ∨
      ∃ value ∈ requestedBefore, value = 0 ∨ min (snapshot + 1) (2 ^ 64 - 1) < value) := by
    rintro (h | ⟨value, hvalue, h | h⟩)
    · omega
    · exact (hvalid value hvalue).1 h
    · have := (hvalid value hvalue).2
      omega
  have hitems := Except.mapM_eq_map hread
  unfold auditPage
  simp only [hsnapshot]
  rw [hbefore, hrows, AuditRow.recency_le, Except.require, Except.require, if_pos hrequire,
    if_pos ⟨hless, hsqlite⟩]
  simp only [bind, Except.bind]
  simp only [Keyset.page, bind, Except.bind] at hitems ⊢
  rw [hitems]
  refine congrArg (fun next => Except.ok (AuditPage.mk snapshot _ next)) ?_
  split
  · rw [List.getLast?_map, Option.map_map, Option.map_map]
    rfl
  · rfl

end

/-! ## Records that stay and records that come -/

/-- The trail since a store: what it had is what was there, and what came has larger
sequences. -/
structure TrailSince (first s : Store) : Prop where
  sequence : first.nextAuditSequence ≤ s.nextAuditSequence
  records : ∀ row ∈ s.audit, row.auditSequence ≤ first.nextAuditSequence → row ∈ first.audit
  links : ∀ link ∈ s.requestAudit, link.auditSequence ≤ first.nextAuditSequence →
    link ∈ first.requestAudit

namespace TrailSince

variable {first s s' : Store}

theorem refl (s : Store) : TrailSince s s where
  sequence := le_rfl
  records := fun _ hrow _ => hrow
  links := fun _ hlink _ => hlink

theorem of_trail (h : TrailSince first s) (htrail : s'.trail = s.trail) : TrailSince first s' := by
  have hsequence : s'.nextAuditSequence = s.nextAuditSequence := congrArg (·.1) htrail
  have haudit : s'.audit = s.audit := congrArg (·.2.1) htrail
  have hlinks : s'.requestAudit = s.requestAudit := congrArg (·.2.2.1) htrail
  exact ⟨hsequence ▸ h.sequence, haudit ▸ h.records, hlinks ▸ h.links⟩

theorem recorded (h : TrailSince first s) (evidence : AuditEvidence) (kind : AuditKind)
    (outcome : AuditOutcome) (reason : AuditReason) :
    TrailSince first (s.recorded evidence kind outcome reason) where
  sequence := Nat.le_succ_of_le h.sequence
  records := by
    intro row hrow hold
    rcases List.mem_append.mp hrow with hrow | hrow
    · exact h.records row hrow hold
    · obtain rfl := List.mem_singleton.mp hrow
      exact absurd (h.sequence.trans_lt (Nat.lt_succ_self _)) (Nat.not_lt_of_le hold)
  links := by
    intro link hlink hold
    rcases List.mem_append.mp hlink with hlink | hlink
    · exact h.links link hlink hold
    · obtain ⟨operationId, -, rfl⟩ := Option.mem_map.mp (Option.mem_toList.mp hlink)
      exact absurd (h.sequence.trans_lt (Nat.lt_succ_self _)) (Nat.not_lt_of_le hold)

theorem compacted (h : TrailSince first s) (sequences : List ℕ) (windows : List RateWindowRow) :
    TrailSince first (s.compacted sequences windows) where
  sequence := h.sequence
  records := fun row hrow => h.records row (List.mem_filter.mp hrow).1
  links := fun link hlink => h.links link (List.mem_filter.mp hlink).1

theorem governance (first : Store) (config : Configuration) :
    GovernanceInvariant config (TrailSince first) where
  grows := fun htrail _ h => h.of_trail htrail
  recorded := fun _ _ _ h => h.recorded _ _ _ _
  counted := fun _ _ _ hcounted h => by
    rw [hcounted.frame]
    exact ⟨h.sequence, h.records, h.links⟩
  compacted := fun sequences windows h => h.compacted sequences windows

/-- A record that is still there is linked to the request that it was linked to. -/
theorem auditRecord_eq (h : TrailSince first s) (inv : AuditInv first) (inv' : AuditInv s)
    {row : AuditRow} (hrow : row ∈ first.audit) (hrow' : row ∈ s.audit) :
    s.auditRecord row = first.auditRecord row := by
  unfold Store.auditRecord Store.linkOf
  rw [← List.head?_filter, ← List.head?_filter]
  cases hkind : row.auditKind.requestBound with
  | true =>
      obtain ⟨link, hlink, hsequence, hlinks⟩ := inv'.filter_links_of_bound hrow' hkind
      have hold := h.links link hlink (hsequence ▸ inv.numbered row hrow)
      have hlinks' := inv.linkSequences.filter_eq_singleton hold
      rw [hsequence] at hlinks'
      rw [hlinks, hlinks']
  | false => rw [inv'.filter_links_of_unbound hrow' hkind, inv.filter_links_of_unbound hrow hkind]

end TrailSince

/-- Sequences start at one. -/
def AuditNumbered (s : Store) : Prop := ∀ row ∈ s.audit, 0 < row.auditSequence

theorem AuditNumbered.governance (config : Configuration) :
    GovernanceInvariant config AuditNumbered where
  grows := fun {s s'} htrail _ h => by
    have haudit : s'.audit = s.audit := congrArg (·.2.1) htrail
    unfold AuditNumbered
    rwa [haudit]
  recorded := fun _ _ _ h row hrow => by
    rcases List.mem_append.mp hrow with hrow | hrow
    · exact h row hrow
    · obtain rfl := List.mem_singleton.mp hrow
      exact Nat.succ_pos _
  counted := fun _ _ _ hcounted h => by
    rw [hcounted.frame]
    exact h
  compacted := fun _ _ h row hrow => h row (List.mem_filter.mp hrow).1

/-! ## Walks over the log -/

/-- The matching records of a store, latest first. -/
def Store.auditLog (s : Store) (matching : AuditRow → Bool) : List AuditRecord :=
  (Table.ordered (fun left right => decide (right.auditSequence ≤ left.auditSequence))
    (s.audit.filter matching)).map s.auditRecord

/-- The stores that a walk reads, when nothing is removed between its pages. -/
structure AuditHistory (stores : ℕ → Store) : Prop where
  inv : ∀ number, AuditInv (stores number)
  numbered : ∀ number, AuditNumbered (stores number)
  since : ∀ number, TrailSince (stores 0) (stores number)
  kept : ∀ number, ∀ row ∈ (stores 0).audit, row ∈ (stores number).audit

namespace AuditHistory

variable {stores : ℕ → Store} {limit : AuditPageLimit} {matching : AuditRow → Bool}
  {read : Store → Option AuditCursor → Except OperationError AuditPage}

/-- The cursors of a walk: none for its first page, and then positions under its snapshot. -/
def Issued (stores : ℕ → Store) (number : ℕ) : Option AuditCursor → Prop
  | none => number = 0
  | some cursor => cursor.snapshot = (stores 0).nextAuditSequence ∧ 0 < cursor.before ∧
      cursor.before ≤ (stores 0).nextAuditSequence

/-- Every later store has the records of the first up to its snapshot. -/
theorem mem_auditUpTo (history : AuditHistory stores) (number : ℕ) (row : AuditRow) :
    row ∈ (stores number).auditUpTo (stores 0).nextAuditSequence matching ↔
      row ∈ (stores 0).auditUpTo (stores 0).nextAuditSequence matching := by
  unfold Store.auditUpTo
  rw [List.mem_filter, List.mem_filter]
  refine and_congr_left fun hrow => ⟨fun hmem => ?_, fun hmem => history.kept number row hmem⟩
  rw [Bool.and_eq_true, decide_eq_true_eq] at hrow
  exact (history.since number).records row hmem hrow.1

theorem auditUpTo_first (history : AuditHistory stores) :
    (stores 0).auditUpTo (stores 0).nextAuditSequence matching =
      (stores 0).audit.filter matching := by
  refine List.filter_congr fun row hrow => ?_
  simp [(history.inv 0).numbered row hrow]

/-- The cursor after a page of a walk is one of the walk. -/
theorem issued_next (history : AuditHistory stores) {number : ℕ} {after : Option ℕᵒᵈ}
    {issued : AuditCursor}
    (h : ((Keyset.page AuditRow.recency limit.get after ((stores number).auditUpTo
      (stores 0).nextAuditSequence matching)).2.map OrderDual.ofDual).map
        (AuditCursor.mk (stores 0).nextAuditSequence) = some issued) :
    Issued stores (number + 1) (some issued) := by
  obtain ⟨before, hbefore, rfl⟩ := Option.map_eq_some_iff.mp h
  obtain ⟨bound, hbound, rfl⟩ := Option.map_eq_some_iff.mp hbefore
  obtain ⟨first, last, hitems, rfl⟩ := Keyset.page_next_eq_some hbound
  have hlast : last ∈ (stores number).auditUpTo (stores 0).nextAuditSequence matching :=
    (Keyset.mem_of_mem_page (by rw [hitems]; simp)).1
  obtain ⟨hmem, hmatching⟩ := List.mem_filter.mp hlast
  rw [Bool.and_eq_true, decide_eq_true_eq] at hmatching
  exact ⟨rfl, history.numbered number last hmem, hmatching.1⟩

/-- A page of a walk is a page of the records up to its snapshot. -/
theorem page_eq (history : AuditHistory stores) (hroom : (stores 0).nextAuditSequence < i64Max)
    {number : ℕ} {cursor : Option AuditCursor} (hissued : Issued stores number cursor) :
    auditPage (stores number) limit (cursor.map AuditCursor.snapshot)
        (cursor.map AuditCursor.before) matching =
      .ok { snapshotSequence := (stores 0).nextAuditSequence
            items := (Keyset.page AuditRow.recency limit.get (cursor.map AuditCursor.position)
              ((stores number).auditUpTo (stores 0).nextAuditSequence matching)).1.map
                (stores number).auditRecord
            nextBeforeSequence :=
              (Keyset.page AuditRow.recency limit.get (cursor.map AuditCursor.position)
                ((stores number).auditUpTo (stores 0).nextAuditSequence matching)).2.map
                  OrderDual.ofDual } := by
  have hwide : i64Max < 2 ^ 64 - 1 := by decide
  have hmin : min ((stores 0).nextAuditSequence + 1) (2 ^ 64 - 1) =
      (stores 0).nextAuditSequence + 1 := by omega
  cases cursor with
  | none =>
      obtain rfl : number = 0 := hissued
      refine auditPage_eq (history.inv 0) none rfl le_rfl (fun _ h => by cases h) hmin (by omega)
        (by omega) fun row hle => ?_
      simp
      omega
  | some cursor =>
      obtain ⟨hsnapshot, hpos, hle⟩ := hissued
      refine auditPage_eq (history.inv number) (some cursor.position) hsnapshot
        (history.since number).sequence ?_ rfl ?_ (by omega) ?_
      · simp only [Option.map_some, Option.mem_some_iff, forall_eq', hmin]
        omega
      · simp only [Option.map_some, Option.getD_some]
        omega
      · simp [AuditRow.recency, AuditCursor.position]

theorem reads (history : AuditHistory stores)
    (hread : ∀ s cursor, read s cursor = auditPage s limit (cursor.map AuditCursor.snapshot)
      (cursor.map AuditCursor.before) matching)
    (hroom : (stores 0).nextAuditSequence < i64Max) :
    Keyset.Reads AuditRow.recency limit.get
      (fun number => (stores number).auditUpTo (stores 0).nextAuditSequence matching)
      (auditReader read stores) (fun number => (stores number).auditRecord) AuditCursor.position
      (Issued stores) := by
  intro number cursor hissued
  refine ⟨((Keyset.page AuditRow.recency limit.get (cursor.map AuditCursor.position)
    ((stores number).auditUpTo (stores 0).nextAuditSequence matching)).2.map
      OrderDual.ofDual).map (AuditCursor.mk (stores 0).nextAuditSequence), ?_, ?_, ?_⟩
  · unfold auditReader
    rw [hread, history.page_eq hroom hissued]
    rfl
  · rw [Option.map_map, Option.map_map]
    exact Option.map_id'
  · intro issued hnext
    rw [hnext]
    exact history.issued_next hnext

/-- The pages of a walk are the log at its first page. -/
theorem walk_eq (history : AuditHistory stores)
    (hread : ∀ s cursor, read s cursor = auditPage s limit (cursor.map AuditCursor.snapshot)
      (cursor.map AuditCursor.before) matching)
    (hroom : (stores 0).nextAuditSequence < i64Max) :
    ∃ pages, Keyset.walk (auditReader read stores) pages 0 none =
      .ok (some ((stores 0).auditLog matching)) := by
  have hfinite : {k | ∃ number, ∃ row ∈ (stores number).auditUpTo (stores 0).nextAuditSequence
      matching, AuditRow.recency row = k}.Finite := by
    refine (Set.finite_Ici (OrderDual.toDual (stores 0).nextAuditSequence)).subset ?_
    rintro _ ⟨number, row, hrow, rfl⟩
    have hrow := (List.mem_filter.mp hrow).2
    rw [Bool.and_eq_true, decide_eq_true_eq] at hrow
    exact hrow.1
  obtain ⟨pages, yielded, hwalk, hyields⟩ := Keyset.walk_yields limit.pos
    (fun number => (history.inv number).recency_unique _ _) hfinite (history.reads hread hroom)
    (show Issued stores 0 none from rfl)
  refine ⟨pages, hwalk.trans (congrArg (Except.ok ∘ some) ?_)⟩
  have hrows := hyields.eq_remaining (fun later _ row => history.mem_auditUpTo later row)
    ((history.inv 0).recency_unique _ _)
  have hitems : (yielded.map fun item => (stores item.1).auditRecord item.2) =
      (yielded.map Prod.snd).map (stores 0).auditRecord := by
    rw [List.map_map]
    refine List.map_congr_left fun item hitem => ?_
    have hlater := (hyields.sound item hitem).2.1
    have hfirst := (history.mem_auditUpTo item.1 item.2).mp hlater
    exact (history.since item.1).auditRecord_eq (history.inv 0) (history.inv item.1)
      (List.mem_filter.mp hfirst).1 (List.mem_filter.mp hlater).1
  rw [hitems, hrows, Store.auditLog, Keyset.remaining, history.auditUpTo_first,
    AuditRow.recency_le]
  simp

end AuditHistory

/-- The first page of an exhausted sequence is refused: its exclusive bound is too large. -/
theorem auditPage_exhausted {s : Store} (h : i64Max ≤ s.nextAuditSequence)
    (limit : AuditPageLimit) (matching : AuditRow → Bool) :
    auditPage s limit none none matching = .error .binding := by
  have hwide : i64Max < 2 ^ 64 - 1 := by decide
  have hfull : ¬ (s.nextAuditSequence ≤ i64Max ∧
      min (s.nextAuditSequence + 1) (2 ^ 64 - 1) ≤ i64Max) := by omega
  unfold auditPage
  simp only [Option.getD_none]
  rw [Except.require, Except.require, if_neg hfull]
  split <;> rfl

/-- A walk whose first page is refused yields nothing. -/
theorem walk_refused {stores : ℕ → Store}
    {read : Store → Option AuditCursor → Except OperationError AuditPage}
    (h : read (stores 0) none = .error .binding) (pages : ℕ) (items : List AuditRecord) :
    Keyset.walk (auditReader read stores) pages 0 none ≠ .ok (some items) := by
  cases pages with
  | zero => simp [Keyset.walk]
  | succ pages => simp [Keyset.walk, auditReader, h, bind, Except.bind]

/-- The pages of a walk are the log at its first page, unless the sequence is exhausted. -/
theorem AuditHistory.walk_iff {stores : ℕ → Store} (history : AuditHistory stores)
    {limit : AuditPageLimit} {matching : AuditRow → Bool}
    {read : Store → Option AuditCursor → Except OperationError AuditPage}
    (hread : ∀ s cursor, read s cursor = auditPage s limit (cursor.map AuditCursor.snapshot)
      (cursor.map AuditCursor.before) matching) :
    (∃ pages, Keyset.walk (auditReader read stores) pages 0 none =
      .ok (some ((stores 0).auditLog matching))) ↔ (stores 0).nextAuditSequence < i64Max := by
  refine ⟨?_, history.walk_eq hread⟩
  rintro ⟨pages, hwalk⟩
  refine Nat.lt_of_not_le fun hfull => walk_refused ?_ pages _ hwalk
  rw [hread]
  exact auditPage_exhausted hfull limit matching

/-- What governance keeps holds at every page. -/
theorem GovernanceInvariant.visits {Inv : Store → Prop}
    (hinv : ∀ config, GovernanceInvariant config Inv) (codec : EventCodec) {system : System}
    {events : ℕ → List Event}
    (hfirst : Inv (Run.visits (System.perform codec) system events 0).store) (number : ℕ) :
    Inv (Run.visits (System.perform codec) system events number).store := by
  obtain ⟨between, hlater⟩ := Run.visits_after (System.perform codec) system events
    (Nat.zero_le number)
  rw [hlater]
  exact GovernanceInvariant.after hinv codec hfirst between

/-- The stores of the service form a history. -/
theorem AuditHistory.of_run (codec : EventCodec) (config : Configuration) (appliedAtUnixS : ℕ)
    (events : ℕ → List Event)
    (hkept : ∀ number, (System.storeAt codec config appliedAtUnixS events 0).audit ⊆
      (System.storeAt codec config appliedAtUnixS events number).audit) :
    AuditHistory (System.storeAt codec config appliedAtUnixS events) where
  inv := GovernanceInvariant.visits AuditInv.governance codec
    (AuditInv.reachable codec config appliedAtUnixS (events 0))
  numbered := GovernanceInvariant.visits AuditNumbered.governance codec
    (GovernanceInvariant.reachable AuditNumbered.governance codec config appliedAtUnixS
      (fun _ h => absurd h List.not_mem_nil) (events 0))
  since := GovernanceInvariant.visits (TrailSince.governance _) codec (.refl _)
  kept := fun number _ hrow => hkept number hrow

namespace Exhausted

def correlation (n : ℕ) : Id32 := BitVec.ofNat 256 (n % 3)

/-- The record of the compaction at a time. -/
def row (n : ℕ) : AuditRow where
  auditSequence := n
  auditId := deriveAuditId (correlation n) .governanceCompaction
  correlationId := correlation n
  auditKind := .governanceCompaction
  outcome := .succeeded
  reasonCode := .compacted
  occurredAt := sampleTime n

/-- The record that the next compaction keeps. -/
def kept : ℕ → List AuditRow
  | 0 => []
  | n + 1 => [row (n + 1)]

/-- The records after so many compactions. -/
def records : ℕ → List AuditRow
  | 0 => []
  | n + 1 => kept n ++ [row (n + 1)]

def store (config : Configuration) (appliedAtUnixS n : ℕ) : Store :=
  { Store.initial config.metadata appliedAtUnixS with nextAuditSequence := n, audit := records n }

def compaction (n : ℕ) : Event :=
  .operation (.compactGovernance (sampleTime n) 1 1 (correlation n))

/-- The first compactions. -/
def compactions (n : ℕ) : List Event := (List.range n).map fun before => compaction (before + 1)

theorem mem_kept {n : ℕ} {found : AuditRow} (h : found ∈ kept n) : 0 < n ∧ found = row n := by
  cases n with
  | zero => cases h
  | succ n => exact ⟨n.succ_pos, List.mem_singleton.mp h⟩

theorem mem_records {n : ℕ} {found : AuditRow} (h : found ∈ records n) :
    (∃ before, n = before + 2 ∧ found = row (before + 1)) ∨ (0 < n ∧ found = row n) := by
  cases n with
  | zero => cases h
  | succ n =>
      rcases List.mem_append.mp h with h | h
      · obtain ⟨hpos, rfl⟩ := mem_kept h
        exact .inl ⟨n - 1, by omega, by congr 1; omega⟩
      · exact .inr ⟨n.succ_pos, List.mem_singleton.mp h⟩

theorem ids_distinct : ∀ left < 3, ∀ right < 3, left ≠ right →
    deriveAuditId (BitVec.ofNat 256 left) .governanceCompaction ≠
      deriveAuditId (BitVec.ofNat 256 right) .governanceCompaction := by
  decide +kernel

/-- Neighbouring compactions have different records. -/
theorem row_id_ne {n : ℕ} {found : AuditRow} (h : found ∈ records n) :
    found.auditId ≠ deriveAuditId (correlation (n + 1)) .governanceCompaction := by
  rcases mem_records h with ⟨before, rfl, rfl⟩ | ⟨-, rfl⟩
  · exact ids_distinct _ (Nat.mod_lt _ (by decide)) _ (Nat.mod_lt _ (by decide)) (by omega)
  · exact ids_distinct _ (Nat.mod_lt _ (by decide)) _ (Nat.mod_lt _ (by decide)) (by omega)

/-- The compaction after `n` others finds the record of the one before the last too old. -/
theorem stale_eq {n : ℕ} (hn : n + 1 ≤ i64Max) :
    ((Table.ordered (fun left right => decide (left.auditSequence ≤ right.auditSequence))
      ((records n).filter fun found => decide (found.occurredAt.get < (sampleTime (n + 1)).get - 1))).take
        1).map AuditRow.auditSequence = if n < 2 then [] else [n - 1] := by
  have hnow := sampleTime_get (Nat.succ_pos n) hn
  rw [hnow]
  match n with
  | 0 => rfl
  | 1 =>
      have hfirst := sampleTime_get Nat.one_pos (Nat.le_of_succ_le hn)
      simp [records, kept, row, hfirst, Table.ordered]
  | n + 2 =>
      have hbefore : (sampleTime (n + 1)).get = n + 1 := sampleTime_get (Nat.succ_pos n) (by omega)
      have hlast : (sampleTime (n + 2)).get = n + 2 := sampleTime_get (Nat.succ_pos _) (by omega)
      simp [records, kept, row, hbefore, hlast, Table.ordered]

theorem filter_stale (n : ℕ) :
    ((records n).filter fun found =>
      decide (found.auditSequence ∉ if n < 2 then [] else [n - 1])) = kept n := by
  match n with
  | 0 => rfl
  | 1 => rfl
  | n + 2 => simp [records, kept, row]

section
variable (config : Configuration) (appliedAtUnixS : ℕ)

/-- The store after the stale record is gone. -/
def cleared (n : ℕ) : Store :=
  { Store.initial config.metadata appliedAtUnixS with nextAuditSequence := n, audit := kept n }

theorem recordable {n : ℕ} (hn : n + 1 ≤ i64Max) :
    Recordable (cleared config appliedAtUnixS n) ⟨correlation (n + 1), sampleTime (n + 1), none⟩
      .governanceCompaction .succeeded .compacted where
  room := hn
  audit := by
    unfold auditInsertAllowed
    simp only [Bool.and_eq_true, decide_eq_true_eq, List.all_eq_true]
    refine ⟨⟨Nat.succ_pos n, hn⟩, fun found hfound => ?_⟩
    obtain ⟨hpos, rfl⟩ := mem_kept hfound
    have hid : (row n).auditId ≠ deriveAuditId (correlation (n + 1)) .governanceCompaction := by
      obtain ⟨before, rfl⟩ := Nat.exists_eq_succ_of_ne_zero hpos.ne'
      exact row_id_ne (List.mem_append_right _ List.mem_cons_self)
    have hcorrelation : (row n).correlationId ≠ correlation (n + 1) := fun heq =>
      hid (congrArg (deriveAuditId · .governanceCompaction) heq)
    simp only [cleared, Store.nextAudit, bne_iff_ne, Bool.not_eq_true', Bool.and_eq_false_iff,
      beq_eq_false_iff_ne]
    exact ⟨⟨n.succ_ne_self.symm, hid⟩, .inl hcorrelation⟩
  link := fun _ h => by cases h

theorem recorded_eq (n : ℕ) :
    (cleared config appliedAtUnixS n).recorded ⟨correlation (n + 1), sampleTime (n + 1), none⟩
      .governanceCompaction .succeeded .compacted = store config appliedAtUnixS (n + 1) := by
  simp [Store.recorded, Store.nextAudit, cleared, store, records, row, Store.initial]

theorem run_compaction {n : ℕ} (hn : n + 1 ≤ i64Max) :
    (compactGovernance (sampleTime (n + 1)) 1 1 (correlation (n + 1))).run
      (store config appliedAtUnixS n) = .ok ((), store config appliedAtUnixS (n + 1)) := by
  have hnone : readAuditById (store config appliedAtUnixS n)
      (deriveAuditId (correlation (n + 1)) .governanceCompaction) = .ok none :=
    readAuditById_eq_none.mpr fun found hfound => row_id_ne hfound
  unfold compactGovernance
  refine run_query_bind_eq_ok.mpr ⟨none, hnone, ?_⟩
  refine run_query_bind_eq_ok.mpr ⟨_, congrArg Except.ok (stale_eq hn), ?_⟩
  refine run_query_bind_eq_ok.mpr ⟨[], rfl, ?_⟩
  refine run_bind_eq_ok.mpr ⟨(), _, rfl, run_bind_eq_ok.mpr ⟨(), _, rfl, ?_⟩⟩
  refine run_require_bind_eq_ok.mpr ⟨by split <;> simp, ?_⟩
  have hfresh : readAuditById (cleared config appliedAtUnixS n)
      (deriveAuditId (correlation (n + 1)) .governanceCompaction) = .ok none := by
    refine readAuditById_eq_none.mpr fun found hfound => row_id_ne (n := n) ?_
    have hkept : found ∈ kept n := hfound
    rw [← filter_stale n] at hkept
    exact (List.mem_filter.mp hkept).1
  have hrecord := (@run_recordAudit_fresh _ (store config appliedAtUnixS (n + 1))
    ⟨correlation (n + 1), sampleTime (n + 1), none⟩ _ .succeeded .compacted () hfresh).mpr
      ⟨recordable config appliedAtUnixS hn, (recorded_eq config appliedAtUnixS n).symm⟩
  unfold cleared at hrecord
  rw [← filter_stale n] at hrecord
  exact hrecord

/-- One more compaction. -/
theorem perform_compaction (codec : EventCodec) {n : ℕ} (hn : n + 1 ≤ i64Max) :
    System.perform codec ⟨config, store config appliedAtUnixS n⟩ (compaction (n + 1)) =
      ⟨config, store config appliedAtUnixS (n + 1)⟩ := by
  have hbinding : (requireExpectedMetadata config).run (store config appliedAtUnixS n) =
      .ok ((), store config appliedAtUnixS n) :=
    run_bind_eq_ok.mpr ⟨_, _, rfl, run_bind_eq_ok.mpr ⟨_, _, rfl, run_require_of rfl _⟩⟩
  have hbody : ((Operation.compactGovernance (sampleTime (n + 1)) 1 1 (correlation (n + 1))).body codec
      config).run (store config appliedAtUnixS n) =
        .ok ((), store config appliedAtUnixS (n + 1)) := by
    refine run_bind_eq_ok.mpr ⟨(), _, run_bind_eq_ok.mpr ⟨(), _, hbinding, ?_⟩, rfl⟩
    exact run_compaction config appliedAtUnixS hn
  change System.mk config _ = _
  rw [atomically_of_ok hbody]

theorem after_compactions (codec : EventCodec) {n : ℕ} (hn : n ≤ i64Max) :
    Run.after (System.perform codec) (System.initial config appliedAtUnixS) (compactions n) =
      ⟨config, store config appliedAtUnixS n⟩ := by
  induction n with
  | zero => rfl
  | succ n ih =>
      rw [compactions, List.range_succ, List.map_append, Run.after_append]
      change System.perform codec (Run.after _ _ (compactions n)) (compaction (n + 1)) = _
      rw [ih (Nat.le_of_succ_le hn), perform_compaction config appliedAtUnixS codec hn]

/-- The stores of a reader after so many compactions; nothing happens between its pages. -/
theorem storeAt_compactions (codec : EventCodec) {n : ℕ} (hn : n ≤ i64Max) (number : ℕ) :
    System.storeAt codec config appliedAtUnixS
      (fun number => if number = 0 then compactions n else []) number =
        store config appliedAtUnixS n := by
  have hsystem : Run.visits (System.perform codec) (System.initial config appliedAtUnixS)
      (fun number => if number = 0 then compactions n else []) number =
        ⟨config, store config appliedAtUnixS n⟩ := by
    induction number with
    | zero => exact after_compactions config appliedAtUnixS codec hn
    | succ number ih => exact ih
  exact congrArg System.store hsystem

end

/-- Every record, in the largest pages. -/
def query : AdminAuditQuery where
  limit := ⟨200, by decide, le_rfl⟩
  snapshotSequence := none
  beforeSequence := none
  filter := ⟨none, none, none, none, by simp, by simp⟩
  ordered := by simp

/-- The stores at the pages after so many compactions. -/
def stores (n : ℕ) : ℕ → Store :=
  System.storeAt SampleService.codec SampleService.config 0
    fun number => if number = 0 then compactions n else []

theorem stores_eq {n : ℕ} (hn : n ≤ i64Max) (number : ℕ) :
    stores n number = store SampleService.config 0 n :=
  storeAt_compactions SampleService.config 0 SampleService.codec hn number

end Exhausted

end MycSigner
