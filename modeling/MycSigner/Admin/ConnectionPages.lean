import MycSigner.Admin.Cursors
import MycSigner.Lib.Keyset
import MycSigner.Lib.Traverse
import MycSigner.Sessions.Lifecycle
import Mathlib.Data.Prod.Lex
import Mathlib.Order.Interval.Finset.Nat

/-!
# The list of connections, page by page

Connections are listed by their last update, latest first, and by their identity where two were
updated at once.  An update moves a connection to the front of the list, past every cursor that
it could stand behind, so that no walk meets a connection twice.
-/

namespace MycSigner

open Transaction

/-- A page limit; the contract's `page_limit` starts at one. -/
structure PageLimit where
  get : ℕ
  pos : 0 < get

/-- One page of the list and the position of the next. -/
structure AdminConnectionPage where
  items : List ConnectionRecord
  next : Option (TimeUnixMs × Id32)

/-- The order of `READ_ADMIN_CONNECTION_PAGE_SQL`. -/
def ConnectionRow.listedBefore (left right : ConnectionRow) : Bool :=
  decide (right.updatedAt < left.updatedAt) ||
    (decide (left.updatedAt = right.updatedAt) && decide (left.connectionId ≤ right.connectionId))

/-- The `WHERE` clauses of `READ_ADMIN_CONNECTION_PAGE_SQL` but the cursor. -/
def ConnectionRow.listed (status : Option ConnectionStatus) (snapshot : TimeUnixMs)
    (row : ConnectionRow) : Bool :=
  decide (row.updatedAt ≤ snapshot) && status.all fun status => row.status == status

/-- The cursor clause of `READ_ADMIN_CONNECTION_PAGE_SQL`. -/
def ConnectionRow.listedAfter (before : Option (TimeUnixMs × Id32)) (row : ConnectionRow) : Bool :=
  before.all fun (time, id) => decide (row.updatedAt < time) ||
    (decide (row.updatedAt = time) && decide (id < row.connectionId))

/-- `read_admin_connection_page` -/
def readAdminConnectionPage (s : Store) (limit : ℕ) (status : Option ConnectionStatus)
    (snapshot : TimeUnixMs) (before : Option (TimeUnixMs × Id32)) :
    Except OperationError AdminConnectionPage := do
  let rows := (Table.ordered ConnectionRow.listedBefore (s.connections.filter fun row =>
    row.listed status snapshot && row.listedAfter before)).take (limit + 1)
  let items ← (rows.take limit).mapM fun row => readConnection s row.connectionId
  .ok { items, next := if limit < rows.length then
          items.getLast?.map fun item => (item.updatedAt, item.id) else none }

/-- One page of a walk over stores that change between the pages. -/
def connectionReader (limit : PageLimit) (status : Option ConnectionStatus)
    (snapshot : TimeUnixMs) (stores : ℕ → Store) (number : ℕ)
    (before : Option (TimeUnixMs × Id32)) :
    Except OperationError (List ConnectionRecord × Option (TimeUnixMs × Id32)) := do
  let page ← readAdminConnectionPage (stores number) limit.get status snapshot before
  .ok (page.items, page.next)

/-- All pages of the list. -/
def adminConnectionWalk (limit : PageLimit) (status : Option ConnectionStatus)
    (snapshot : TimeUnixMs) (stores : ℕ → Store) (pages : ℕ) :
    Except OperationError (Option (List ConnectionRecord)) :=
  Keyset.walk (connectionReader limit status snapshot stores) pages 0 none

/-! ## The page as a page of a table -/

/-- The place in the list: latest update first, then by identity. -/
def listKey (place : TimeUnixMs × Id32) : ℕᵒᵈ ×ₗ ℕ :=
  toLex (OrderDual.toDual place.1.get, place.2.toNat)

def ConnectionRow.place (row : ConnectionRow) : TimeUnixMs × Id32 :=
  (row.updatedAt, row.connectionId)

theorem TimeUnixMs.get_injective : Function.Injective TimeUnixMs.get := by
  rintro ⟨left, _, _⟩ ⟨right, _, _⟩ h
  cases h
  rfl

theorem listKey_lt {left right : TimeUnixMs × Id32} :
    listKey left < listKey right ↔
      right.1 < left.1 ∨ left.1 = right.1 ∧ left.2 < right.2 := by
  rw [listKey, listKey, Prod.Lex.toLex_lt_toLex, BitVec.lt_def, ← TimeUnixMs.get_injective.eq_iff]
  exact Iff.rfl

theorem listKey_le {left right : TimeUnixMs × Id32} :
    listKey left ≤ listKey right ↔
      right.1 < left.1 ∨ left.1 = right.1 ∧ left.2 ≤ right.2 := by
  rw [listKey, listKey, Prod.Lex.toLex_le_toLex, BitVec.le_def, ← TimeUnixMs.get_injective.eq_iff]
  exact Iff.rfl

theorem ConnectionRow.listedBefore_eq :
    ConnectionRow.listedBefore =
      fun left right => decide (listKey left.place ≤ listKey right.place) := by
  funext left right
  rw [Bool.eq_iff_iff, decide_eq_true_iff, listKey_le]
  simp [ConnectionRow.listedBefore, ConnectionRow.place]

theorem ConnectionRow.listedAfter_eq (before : Option (TimeUnixMs × Id32)) (row : ConnectionRow) :
    row.listedAfter before = decide (∀ bound ∈ before.map listKey, bound < listKey row.place) := by
  cases before with
  | none => simp [ConnectionRow.listedAfter]
  | some before =>
      rw [Bool.eq_iff_iff, decide_eq_true_iff]
      simp only [Option.map_some, Option.mem_some_iff, forall_eq', listKey_lt]
      rw [eq_comm (a := before.1)]
      simp [ConnectionRow.listedAfter, ConnectionRow.place]

/-- The connections of a list. -/
def Store.listed (s : Store) (status : Option ConnectionStatus) (snapshot : TimeUnixMs) :
    List ConnectionRow :=
  s.connections.filter (ConnectionRow.listed status snapshot)

/-- A connection as it is read; every stored connection can be. -/
def Store.connectionRecord (s : Store) (row : ConnectionRow) : ConnectionRecord :=
  (readConnection s row.connectionId).toOption.getD
    (row.record ⟨[], by decide⟩ ⟨[], by decide⟩)

theorem ReadableInv.connectionRecord {s : Store} (inv : ReadableInv s) {row : ConnectionRow}
    (hrow : row ∈ s.connections) :
    readConnection s row.connectionId = .ok (s.connectionRecord row) ∧
      ∃ requested granted, s.connectionRecord row = row.record requested granted := by
  obtain ⟨requested, granted, hread, -⟩ := inv.read_connection hrow
  have hrecord : s.connectionRecord row = row.record requested granted := by
    rw [Store.connectionRecord, hread]
    rfl
  exact ⟨hrecord ▸ hread, requested, granted, hrecord⟩

theorem SessionInv.place_unique {s : Store} (inv : SessionInv s)
    (status : Option ConnectionStatus) (snapshot : TimeUnixMs) :
    Table.Unique (fun row => listKey row.place) (s.listed status snapshot) := by
  refine List.Nodup.map_on (fun left hleft right hright heq => ?_)
    (inv.connections_unique.nodup.sublist List.filter_sublist)
  have hid : left.connectionId.toNat = right.connectionId.toNat :=
    congrArg (fun key => (ofLex key).2) heq
  exact inv.connections_unique.eq_of_key_eq (List.mem_filter.mp hleft).1
    (List.mem_filter.mp hright).1 (BitVec.eq_of_toNat_eq hid)

/-- A page of the list is a page of its connections. -/
theorem readAdminConnectionPage_eq {s : Store} (inv : ReadableInv s) (limit : ℕ)
    (status : Option ConnectionStatus) (snapshot : TimeUnixMs)
    (before : Option (TimeUnixMs × Id32)) :
    ∃ next, readAdminConnectionPage s limit status snapshot before =
        .ok ⟨(Keyset.page (fun row => listKey row.place) limit (before.map listKey)
          (s.listed status snapshot)).1.map s.connectionRecord, next⟩ ∧
      next.map listKey = (Keyset.page (fun row => listKey row.place) limit (before.map listKey)
        (s.listed status snapshot)).2 := by
  have hrows : (s.connections.filter fun row =>
      row.listed status snapshot && row.listedAfter before) =
        (s.listed status snapshot).filter fun row =>
          decide (∀ bound ∈ before.map listKey, bound < listKey row.place) := by
    rw [Store.listed, List.filter_filter]
    refine List.filter_congr fun row _ => ?_
    rw [ConnectionRow.listedAfter_eq, Bool.and_comm]
  have hread : ∀ row ∈ (Keyset.page (fun row => listKey row.place) limit (before.map listKey)
      (s.listed status snapshot)).1,
      readConnection s row.connectionId = .ok (s.connectionRecord row) := fun row hrow =>
    (inv.connectionRecord (List.mem_filter.mp (Keyset.mem_of_mem_page hrow).1).1).1
  have hitems := Except.mapM_eq_map hread
  have hplace : ∀ row ∈ (Keyset.page (fun row => listKey row.place) limit (before.map listKey)
      (s.listed status snapshot)).1,
      ((s.connectionRecord row).updatedAt, (s.connectionRecord row).id) = row.place := by
    intro row hrow
    obtain ⟨-, requested, granted, hrecord⟩ :=
      inv.connectionRecord (List.mem_filter.mp (Keyset.mem_of_mem_page hrow).1).1
    rw [hrecord]
    rfl
  unfold readAdminConnectionPage
  rw [hrows, ConnectionRow.listedBefore_eq]
  simp only [Keyset.page, bind, Except.bind] at hitems hplace ⊢
  rw [hitems]
  refine ⟨_, rfl, ?_⟩
  split
  · rw [List.getLast?_map, Option.map_map, Option.map_map]
    refine Option.map_congr fun row hrow => ?_
    exact congrArg listKey (hplace row (List.mem_of_getLast? hrow))
  · rfl

/-! ## Walks over the list -/

/-- The stores that a walk reads. -/
structure ConnectionHistory (stores : ℕ → Store) : Prop where
  inv : ∀ number, ReadableInv (stores number)
  progresses : ∀ {first second : ℕ}, first ≤ second →
    Progresses (Relation.TransGen ConnectionStatus.Moves) (stores first) (stores second)

/-- The stores of the service form a history. -/
theorem ConnectionHistory.of_run (codec : EventCodec) (config : Configuration)
    (appliedAtUnixS : ℕ) (events : ℕ → List Event) :
    ConnectionHistory (System.storeAt codec config appliedAtUnixS events) where
  inv := by
    intro number
    obtain ⟨between, hlater⟩ := Run.visits_after (System.perform codec)
      (.initial config appliedAtUnixS) events (Nat.zero_le number)
    rw [System.storeAt, hlater]
    exact (ReadableInv.reachable codec config appliedAtUnixS (events 0)).after between
  progresses := by
    intro first second hle
    obtain ⟨between, hlater⟩ := Run.visits_after (System.perform codec)
      (.initial config appliedAtUnixS) events hle
    rw [System.storeAt, System.storeAt, hlater]
    exact Progresses.run codec _ between

namespace ConnectionHistory

variable {stores : ℕ → Store} {status : Option ConnectionStatus} {snapshot : TimeUnixMs}

/-- A connection only moves to the front of the list. -/
theorem front (history : ConnectionHistory stores) {first second : ℕ} (hle : first ≤ second)
    {row later : ConnectionRow} (hrow : row ∈ (stores first).connections)
    (hlater : later ∈ (stores second).connections)
    (hid : later.connectionId = row.connectionId) : listKey later.place ≤ listKey row.place := by
  obtain ⟨row', hrow', hfollows⟩ := (history.progresses hle).connections row hrow
  obtain rfl := (history.inv second).session.connections_unique.eq_of_key_eq hrow' hlater
    (hfollows.connectionId.trans hid.symm)
  have hupdated : row.updatedAt ≤ row'.updatedAt := by
    rcases hfollows with heq | hmoved
    · exact (congrArg ConnectionRow.updatedAt heq) ▸ Nat.le_refl _
    · exact hmoved.updated
  rw [listKey_le]
  rcases Nat.lt_or_eq_of_le hupdated with hlt | heq
  · exact .inl hlt
  · exact .inr ⟨TimeUnixMs.get_injective heq.symm, (congrArg BitVec.toNat hid).le⟩

/-- Times up to the snapshot and identities make finitely many places. -/
theorem places_finite (stores : ℕ → Store) (status : Option ConnectionStatus)
    (snapshot : TimeUnixMs) :
    {key | ∃ number, ∃ row ∈ (stores number).listed status snapshot,
      listKey row.place = key}.Finite := by
  have hbounded := ((Set.finite_Iic snapshot.get).prod (Set.finite_Iio (2 ^ 256))).image
    fun place : ℕ × ℕ => toLex (OrderDual.toDual place.1, place.2)
  refine hbounded.subset ?_
  rintro _ ⟨number, row, hrow, rfl⟩
  have hlisted := (List.mem_filter.mp hrow).2
  unfold ConnectionRow.listed at hlisted
  rw [Bool.and_eq_true, decide_eq_true_iff] at hlisted
  exact ⟨(row.updatedAt.get, row.connectionId.toNat),
    ⟨hlisted.1, row.connectionId.isLt⟩, rfl⟩

/-- What a walk over the list yields. -/
theorem walk_yields (history : ConnectionHistory stores) (limit : PageLimit) :
    ∃ pages yielded, adminConnectionWalk limit status snapshot stores pages =
        .ok (some (yielded.map fun item => (stores item.1).connectionRecord item.2)) ∧
      Keyset.Yields (fun row => listKey row.place)
        (fun number => (stores number).listed status snapshot) 0 none yielded := by
  have hreads : Keyset.Reads (fun row => listKey row.place) limit.get
      (fun number => (stores number).listed status snapshot)
      (connectionReader limit status snapshot stores)
      (fun number => (stores number).connectionRecord) listKey fun _ _ => True := by
    intro number cursor _
    obtain ⟨next, hpage, hnext⟩ :=
      readAdminConnectionPage_eq (history.inv number) limit.get status snapshot cursor
    refine ⟨next, ?_, hnext, fun _ _ => trivial⟩
    rw [connectionReader, hpage]
    rfl
  exact Keyset.walk_yields limit.pos
    (fun number => (history.inv number).session.place_unique status snapshot)
    (places_finite stores status snapshot) hreads trivial

end ConnectionHistory

/-- The order of the items of a list. -/
def ConnectionRecord.ListedBefore (left right : ConnectionRecord) : Prop :=
  right.updatedAt < left.updatedAt ∨ left.updatedAt = right.updatedAt ∧ left.id < right.id

/-- The pages of a list end, whatever happens between them: their items are in order, no
connection is among them twice, and each connection of the list that stays as it is, is.  A
cursor opens under the state that it was made for, and under no other. -/
theorem connection_pages_read_list (codec : EventCodec) (config : Configuration)
    (appliedAtUnixS : ℕ) (events : ℕ → List Event) (limit : PageLimit)
    (status : Option ConnectionStatus) (snapshot : TimeUnixMs) :
    let stores := System.storeAt codec config appliedAtUnixS events
    (∃ pages items, adminConnectionWalk limit status snapshot stores pages = .ok (some items) ∧
      items.Pairwise ConnectionRecord.ListedBefore ∧
      (items.map ConnectionRecord.id).Nodup ∧
      (∀ item ∈ items, ∃ number, ∃ row ∈ (stores number).connections,
        row.listed status snapshot = true ∧ row.connectionId = item.id ∧
          readConnection (stores number) row.connectionId = .ok item) ∧
      ∀ row, row.listed status snapshot = true →
        (∀ number, row ∈ (stores number).connections) →
          ∃ requested granted, row.record requested granted ∈ items) ∧
    ∀ (text : CursorText) (key : Id32) (before : TimeUnixMs) (id : Id32)
      (asked : Option ConnectionStatus),
      decodeConnectionCursor text (encodeConnectionCursor text snapshot before id status key) asked
        key = if status = asked then .ok ⟨snapshot, before, id⟩ else .error .invalidCursor := by
  intro stores
  refine ⟨?_, fun text key before id asked =>
    decodeConnectionCursor_encode text key snapshot before id status asked⟩
  have history := ConnectionHistory.of_run codec config appliedAtUnixS events
  obtain ⟨pages, yielded, hwalk, hyields⟩ := history.walk_yields limit
  have hrecord : ∀ item ∈ yielded, ∃ requested granted,
      (stores item.1).connectionRecord item.2 = item.2.record requested granted :=
    fun item hitem => ((history.inv item.1).connectionRecord
      (List.mem_filter.mp (hyields.sound item hitem).2.1).1).2
  refine ⟨pages, _, hwalk, ?_, ?_, ?_, ?_⟩
  · refine List.pairwise_map.mpr (hyields.sorted.imp_of_mem fun hleft hright hlt => ?_)
    obtain ⟨_, _, hleft⟩ := hrecord _ hleft
    obtain ⟨_, _, hright⟩ := hrecord _ hright
    rw [hleft, hright]
    exact listKey_lt.mp hlt.2
  · have hids : ((yielded.map fun item => (stores item.1).connectionRecord item.2).map
        ConnectionRecord.id) = yielded.map fun item => item.2.connectionId := by
      rw [List.map_map]
      refine List.map_congr_left fun item hitem => ?_
      obtain ⟨_, _, heq⟩ := hrecord item hitem
      exact congrArg ConnectionRecord.id heq
    rw [hids]
    refine hyields.nodup fun hle row hrow later hlater hid => ?_
    exact history.front hle (List.mem_filter.mp hrow).1 (List.mem_filter.mp hlater).1 hid
  · intro item hitem
    obtain ⟨⟨number, row⟩, hyielded, rfl⟩ := List.mem_map.mp hitem
    obtain ⟨hrow, hlisted⟩ := List.mem_filter.mp (hyields.sound _ hyielded).2.1
    obtain ⟨hread, requested, granted, heq⟩ := (history.inv number).connectionRecord hrow
    exact ⟨number, row, hrow, hlisted, (congrArg ConnectionRecord.id heq).symm, hread⟩
  · intro row hlisted hthere
    obtain ⟨number, hyielded⟩ := hyields.complete row
      (fun number _ => List.mem_filter.mpr ⟨hthere number, hlisted⟩) (by simp)
    obtain ⟨requested, granted, heq⟩ := hrecord _ hyielded
    exact ⟨requested, granted, List.mem_map.mpr ⟨_, hyielded, heq⟩⟩

end MycSigner
