import Cixa.Paging
import Cixa.JsonText
import Cixa.Available
import Mathlib.Data.List.Sort
import Mathlib.Data.Prod.Lex

/-! # Pages — a client that follows the cursor sees every record once

    Three requests list records in pages: the transactions, to the owner or
    to an agent, the owner's transactions, and the audit log.  A client asks
    without a cursor and goes on with `next_cursor` until `has_more` is
    false.

    The records are kept in a strict order, a cursor is the key of a record,
    and a page is what follows it.  Between two pages any calls may be made:
    records are added at any place of the order and NONE leaves or moves. -/

namespace Treasury

open CixaData CixaHost Outcome Checks Paging Transition

variable {host : Host} {w w' v : World} {s : TreasuryState} {actor : Actor}
  {limit : Nat}

/-! ## What is listed -/

/-- A record of one of the listings. -/
inductive Listed where
  | intent (i : PurchaseIntent)
  | entry (e : AuditEntry)

namespace Listed

/-- Intents are ordered by creation and id, entries by their sequence. -/
def key : Listed → Int ×ₗ String
  | .intent i => toLex (i.createdAt, i.id)
  | .entry e => toLex ((e.sequence : Int), "")

/-- What a record is called in a page. -/
def name : Listed → Json
  | .intent i => .str i.id
  | .entry e => .num e.sequence

end Listed

/-- The requests that answer in pages. -/
inductive Listing where
  | transactions
  | ownerTransactions
  | ownerAudit

namespace Listing

/-- The sequence a cursor of the audit log names. -/
def sequenceOf : Json → Option Nat
  | .num n => some n.toNat
  | _ => none

/-- The request for the page after a cursor. -/
def request (cursor : Json) (limit : Nat) : Listing → Request
  | .transactions => .listTransactionsPage cursor.asStr? limit
  | .ownerTransactions => .ownerListTransactionsPage cursor.asStr? limit
  | .ownerAudit => .ownerListAuditPage (sequenceOf cursor) limit

/-- Whether somebody may read a listing. -/
def guard (s : TreasuryState) (actor : Actor) :
    Listing → Except TreasuryError Unit
  | .transactions => requireScopeOfAgent s actor "transactions:read"
  | _ => requireOwner actor

/-- The intents of a listing: newest first, then the greater id. -/
def newestFirst (s : TreasuryState) (visible : PurchaseIntent → Bool) :
    List PurchaseIntent :=
  (s.intents.values.filter visible).insertionSort createdLater

/-- The records of a listing in the order in which they are shown. -/
def records (s : TreasuryState) (actor : Actor) : Listing → List Listed
  | .transactions => (newestFirst s (isVisible actor)).map .intent
  | .ownerTransactions => (newestFirst s fun _ => true).map .intent
  | .ownerAudit => s.audit.reverse.map .entry

/-- How a record is shown. -/
def view (actor : Actor) (listing : Listing) : Listed → Json
  | .intent i =>
      match listing with
      | .transactions => intentView actor i
      | _ => ownerIntent i
  | .entry e => Encode.auditEntry e

/-- The records a page shows. -/
def rows (listing : Listing) (page : Json) : List Json :=
  match page.getField? (match listing with
    | .ownerAudit => "entries"
    | _ => "transactions") with
  | some (.arr items) => items
  | _ => []

/-- What a shown record is called. -/
def nameOf (listing : Listing) (row : Json) : Option Json :=
  row.getField? (match listing with
    | .ownerAudit => "sequence"
    | _ => "id")

end Listing

/-- Whether a page says that there is more. -/
def hasMore (page : Json) : Bool :=
  match page.getField? "has_more" with
  | some (.bool more) => more
  | _ => false

/-- The cursor a page gives for the next. -/
def nextCursor (page : Json) : Json :=
  (page.getField? "next_cursor").getD .null

/-! ## The order of the records -/

theorem createdLater_iff {i j : PurchaseIntent} : createdLater i j
    ↔ (Listed.intent j).key ≤ (Listed.intent i).key :=
  (Prod.Lex.toLex_le_toLex (x := (j.createdAt, j.id))
    (y := (i.createdAt, i.id))).symm

instance : Std.Total createdLater :=
  ⟨fun _ _ => (le_total _ _).imp createdLater_iff.mpr createdLater_iff.mpr⟩

instance : IsTrans PurchaseIntent createdLater :=
  ⟨fun _ _ _ h h' => createdLater_iff.mpr
    ((createdLater_iff.mp h').trans (createdLater_iff.mp h))⟩

/-- The stored intents have different ids. -/
theorem Keyed.ids_nodup (hk : Keyed s) :
    s.intents.values.Pairwise (fun i j => i.id ≠ j.id) := by
  show (s.intents.entries.map Prod.snd).Pairwise _
  rw [List.pairwise_map]
  refine s.intents.sorted.imp_of_mem fun {a b} ha hb hlt heq => ?_
  rw [hk a.1 a.2 (SortedMap.get?_eq_some.mpr ha),
    hk b.1 b.2 (SortedMap.get?_eq_some.mpr hb)] at heq
  exact absurd hlt (heq ▸ lt_irrefl _)

theorem mem_newestFirst {visible : PurchaseIntent → Bool}
    {i : PurchaseIntent} : i ∈ Listing.newestFirst s visible
      ↔ (∃ id, s.intents.get? id = some i) ∧ visible i = true := by
  unfold Listing.newestFirst
  rw [List.mem_insertionSort, List.mem_filter, SortedMap.mem_values]

theorem newestFirst_ids (hk : Keyed s) (visible : PurchaseIntent → Bool) :
    (Listing.newestFirst s visible).Pairwise (fun i j => i.id ≠ j.id) := by
  unfold Listing.newestFirst
  rw [(List.perm_insertionSort _ _).pairwise_iff (fun h => h.symm)]
  exact hk.ids_nodup.filter _

theorem newestFirst_descending (hk : Keyed s)
    (visible : PurchaseIntent → Bool) :
    Descending Listed.key
      ((Listing.newestFirst s visible).map .intent) := by
  unfold Descending
  rw [List.pairwise_map]
  refine ((List.pairwise_insertionSort createdLater _).and
    (newestFirst_ids hk visible)).imp fun h => ?_
  refine lt_of_le_of_ne (createdLater_iff.mp h.1) fun heq => h.2 ?_
  exact (congrArg (fun k => (ofLex k).2) heq).symm

/-- The entries of the audit log are numbered from one on. -/
def Numbered (s : TreasuryState) : Prop :=
  ∀ k e, s.audit[k]? = some e → e.sequence = k + 1

theorem Numbered.pairwise (h : Numbered s) :
    s.audit.Pairwise (fun a b => a.sequence < b.sequence) := by
  rw [List.pairwise_iff_getElem]
  intro i j hi hj hlt
  rw [h i _ (List.getElem?_eq_getElem hi), h j _ (List.getElem?_eq_getElem hj)]
  omega

theorem Numbered.pos (h : Numbered s) {e : AuditEntry} (he : e ∈ s.audit) :
    1 ≤ e.sequence := by
  obtain ⟨k, hk⟩ := List.getElem?_of_mem he
  rw [h k e hk]
  omega

theorem Numbered.first (h : Numbered s) {e : AuditEntry} (he : e ∈ s.audit) :
    ∃ first ∈ s.audit, first.sequence = 1 := by
  have hlen := List.length_pos_of_mem he
  exact ⟨s.audit[0], List.getElem_mem hlen,
    h 0 _ (List.getElem?_eq_getElem hlen)⟩

/-- A state whose records are in order. -/
structure Shelved (s : TreasuryState) : Prop where
  keyed : Keyed s
  numbered : Numbered s

/-- **THE ORDER IS STRICT**: every record is below the records before it. -/
theorem Shelved.descending (h : Shelved s) (actor : Actor)
    (listing : Listing) :
    Descending Listed.key (listing.records s actor) := by
  cases listing with
  | transactions => exact newestFirst_descending h.keyed _
  | ownerTransactions => exact newestFirst_descending h.keyed _
  | ownerAudit =>
      show Descending Listed.key (s.audit.reverse.map .entry)
      unfold Descending
      rw [List.pairwise_map, List.pairwise_reverse]
      exact h.numbered.pairwise.imp fun hlt =>
        Prod.Lex.toLex_lt_toLex.mpr (Or.inl (Int.ofNat_lt.mpr hlt))

/-! ## Order along a run -/

theorem Path.chained {allowed : Label → Prop} (h : Path host allowed w w')
    (hc : Chained host w.auditKey w.state.audit) :
    Chained host w'.auditKey w'.state.audit := by
  refine h.invariant
    (I := fun v => Chained host v.auditKey v.state.audit)
    (fun _ _ _ _ hc ha => hc.chained ha) ?_ hc
  intro a b hp ha _
  show Chained host b.auditKey a.state.audit
  rw [hp.advance.key]
  exact ha

/-- **THE CHAIN VERIFIES** in every reachable world. -/
theorem TreasuryRun.chained {token : String} {w0 : World} {cs : List Call}
    (h : TreasuryRun host token w0 cs w) :
    Chained host w.auditKey w.state.audit := by
  obtain ⟨_, _, hboot⟩ := h.started
  exact h.path.chained (bootstrap_chained hboot)

/-- A chain that verifies is numbered. -/
theorem verifyEntries_numbered {key : List UInt8} {audit : List AuditEntry}
    {start next : Nat × String}
    (h : audit.foldlM (verifyAuditEntry host key) start = .ok next) {k : Nat}
    {e : AuditEntry} (he : audit[k]? = some e) : e.sequence = start.1 + k := by
  induction audit generalizing start k with
  | nil => exact nomatch he
  | cons first rest ih =>
      obtain ⟨mid, hfirst, hrest⟩ := CheckedFold.foldlM_cons h
      obtain ⟨hseq, _, _, rfl⟩ := verifyAuditEntry_ok.mp hfirst
      -- the first entry has the number, the others follow
      cases k with
      | zero => exact (Option.some.inj he) ▸ hseq
      | succ k =>
          rw [List.getElem?_cons_succ] at he
          rw [ih hrest he]
          omega

theorem Chained.numbered {key : List UInt8}
    (h : Chained host key s.audit) : Numbered s := by
  intro k e he
  obtain ⟨next, hnext⟩ := h
  rw [verifyEntries_numbered hnext he, Nat.add_comm]

/-- The log only gets longer. -/
theorem Path.entries_kept {allowed : Label → Prop}
    (h : Path host allowed w w') : w.state.audit <+: w'.state.audit := by
  refine h.rel (R := fun a b => a.state.audit <+: b.state.audit)
    (fun _ => List.prefix_refl _) (fun _ _ _ => List.IsPrefix.trans) ?_
    (fun _ _ _ => List.prefix_refl _)
  intro l a b _ hc
  rcases hc.entries with ⟨hs, _⟩ | ⟨_, e, _, _, _, hs, _⟩
  · exact hs ▸ List.prefix_refl _
  · exact hs ▸ List.prefix_append _ _

/-- A record at its place, perhaps further on in its life. -/
def Same (a b : Listed) : Prop := b.key = a.key ∧ b.name = a.name

/-- **NO RECORD LEAVES OR MOVES** along a path with fresh draws. -/
theorem Path.records_kept {allowed : Label → Prop}
    (h : Path host allowed w w') (hfresh : FreshBelow host w'.drawn)
    (hids : IdsDrawn host w) {listing : Listing} {a : Listed}
    (ha : a ∈ listing.records w.state actor) :
    ∃ b ∈ listing.records w'.state actor, Same a b := by
  have hintents : ∀ visible : PurchaseIntent → Bool,
      (∀ i j, Continues i j → visible j = visible i) →
      a ∈ (Listing.newestFirst w.state visible).map Listed.intent →
      ∃ b ∈ (Listing.newestFirst w'.state visible).map Listed.intent,
        Same a b := by
    intro visible hvisible hmem
    obtain ⟨i, hi, rfl⟩ := List.mem_map.mp hmem
    obtain ⟨⟨id, hget⟩, hv⟩ := mem_newestFirst.mp hi
    obtain ⟨j, hj, hc⟩ := (h.persists hfresh (Nat.le_refl _) hids).2 id i hget
    refine ⟨.intent j, List.mem_map_of_mem (mem_newestFirst.mpr
      ⟨⟨id, hj⟩, (hvisible i j hc).trans hv⟩), ?_, ?_⟩
    · show toLex (j.createdAt, j.id) = toLex (i.createdAt, i.id)
      rw [hc.createdAt, hc.id]
    · exact congrArg Json.str hc.id
  cases listing with
  | transactions =>
      refine hintents _ (fun i j hc => ?_) ha
      unfold isVisible
      rw [hc.agentId]
  | ownerTransactions => exact hintents _ (fun _ _ _ => rfl) ha
  | ownerAudit =>
      obtain ⟨e, he, rfl⟩ := List.mem_map.mp ha
      refine ⟨.entry e, List.mem_map_of_mem (List.mem_reverse.mpr
        (h.entries_kept.subset (List.mem_reverse.mp he))), rfl, rfl⟩

/-! ## What a page shows -/

/-- The cursor of a record, or none at all. -/
inductive Marks (l : List Listed) : Json → Option (Int ×ₗ String) → Prop where
  | start : Marks l .null none
  | after {a : Listed} (ha : a ∈ l) : Marks l a.name (some a.key)

/-- A page shows records, says whether there are more, and gives the cursor
    of its last. -/
structure Shows (actor : Actor) (listing : Listing) (shown : List Listed)
    (more : Bool) (page : Json) : Prop where
  rows : listing.rows page = shown.map (listing.view actor)
  flag : hasMore page = more
  next : more = true → ∀ a, shown.getLast? = some a → nextCursor page = a.name

theorem requirePageLimit_ok : requirePageLimit limit = .ok ⟨⟩
    ↔ 0 < limit ∧ limit ≤ 50 := by
  unfold requirePageLimit
  rw [refuseIf_eq_ok]
  show ¬(limit = 0 ∨ 50 < limit) ↔ _
  omega

/-- A shown intent carries its id. -/
theorem name_ownerIntent (i : PurchaseIntent) :
    (ownerIntent i).getField? "id" = some (.str i.id) := by
  unfold ownerIntent
  rw [Json.getField?_mkObj]
  simp [sanitizedFields]

theorem name_sanitizedIntent (i : PurchaseIntent) :
    (sanitizedIntent i).getField? "id" = some (.str i.id) := by
  unfold sanitizedIntent
  rw [Json.getField?_mkObj]
  simp [sanitizedFields]

/-- A cursor starts a page behind its record. -/
theorem pageStart_after {visible : PurchaseIntent → Bool} {cursor : Json}
    {c : Option (Int ×ₗ String)} (hk : Keyed s)
    (hc : Marks ((Listing.newestFirst s visible).map .intent) cursor c) :
    ∃ start, pageStart (Listing.newestFirst s visible) cursor.asStr?
        = .ok start
      ∧ after Listed.key c ((Listing.newestFirst s visible).map .intent)
        = ((Listing.newestFirst s visible).drop start).map .intent := by
  cases hc with
  | start => exact ⟨0, rfl, by rw [after_none, List.drop_zero]⟩
  | after ha =>
      obtain ⟨i, hi, rfl⟩ := List.mem_map.mp ha
      obtain ⟨p, hp⟩ : ∃ p, (Listing.newestFirst s visible).findIdx?
          (fun j => decide (j.id = i.id)) = some p := by
        rw [← Option.isSome_iff_exists, List.findIdx?_isSome, List.any_eq_true]
        exact ⟨i, hi, decide_eq_true rfl⟩
      obtain ⟨hlt, hsame, _⟩ := List.findIdx?_eq_some_iff_getElem.mp hp
      -- the record found is the record, for both are stored under one id
      have hi' : (Listing.newestFirst s visible)[p] = i := by
        obtain ⟨⟨id, hget⟩, _⟩ := mem_newestFirst.mp hi
        obtain ⟨⟨id', hget'⟩, _⟩ := mem_newestFirst.mp (List.getElem_mem hlt)
        have hid := of_decide_eq_true hsame
        rw [hk id' _ hget', hk id i hget] at hid
        rw [hid, hget] at hget'
        exact (Option.some.inj hget').symm
      refine ⟨p + 1, ?_, ?_⟩
      · show (do
          let position ← orRefuse ((Listing.newestFirst s visible).findIdx?
            (fun j : PurchaseIntent => decide (j.id = i.id))) _
          pure (position + 1)) = _
        rw [hp]
        rfl
      · rw [List.map_drop]
        refine (newestFirst_descending hk visible).after_at ?_
        rw [List.getElem?_map, List.getElem?_eq_getElem hlt, hi']
        rfl

/-- **A PAGE OF INTENTS** shows what follows its cursor. -/
theorem transactionPage_shows (actor : Actor) {visible : PurchaseIntent → Bool}
    {listing : Listing} {cursor : Json} {c : Option (Int ×ₗ String)}
    (hl : listing ≠ .ownerAudit) (hk : Keyed s)
    (hlimit : 0 < limit ∧ limit ≤ 50)
    (hc : Marks ((Listing.newestFirst s visible).map .intent) cursor c) :
    ∃ page, transactionPage s visible
        (fun i => listing.view actor (.intent i)) cursor.asStr? limit = .ok page
      ∧ Shows actor listing ((after Listed.key c
          ((Listing.newestFirst s visible).map .intent)).take limit)
        (decide (limit < (after Listed.key c
          ((Listing.newestFirst s visible).map .intent)).length)) page := by
  obtain ⟨start, hstart, hafter⟩ := pageStart_after hk hc
  rw [hafter]
  unfold transactionPage
  rw [requirePageLimit_ok.mpr hlimit]
  unfold Listing.newestFirst at hstart ⊢
  generalize (s.intents.values.filter visible).insertionSort createdLater
    = l at hstart ⊢
  have hmore : start + (((l.drop start).take limit).map fun i =>
        listing.view actor (.intent i)).length < l.length
      ↔ limit < ((l.drop start).map Listed.intent).length := by
    simp only [List.length_map, List.length_take, List.length_drop]
    omega
  show ∃ page, (do
    let start ← pageStart l cursor.asStr?
    _) = Except.ok page ∧ _
  rw [hstart]
  refine ⟨_, rfl, ?_, ?_, ?_⟩
  · unfold Listing.rows
    rw [Json.getField?_mkObj, ← List.map_take, List.map_map]
    cases listing with
    | ownerAudit => exact absurd rfl hl
    | _ => rfl
  · unfold hasMore
    rw [Json.getField?_mkObj]
    exact decide_eq_decide.mpr hmore
  · intro hon a ha
    unfold nextCursor
    rw [Json.getField?_mkObj, decide_eq_true (hmore.mpr (of_decide_eq_true hon))]
    rw [← List.map_take, List.getLast?_map, Option.map_eq_some_iff] at ha
    obtain ⟨i, hi, rfl⟩ := ha
    rw [List.getLast?_map, hi]
    have hid : (listing.view actor (.intent i)).getField? "id"
        = some (.str i.id) := by
      cases listing with
      | transactions =>
          cases actor with
          | owner => exact name_ownerIntent i
          | agent id => exact name_sanitizedIntent i
      | _ => exact name_ownerIntent i
    show Option.getD (some (Json.optStr
      ((Json.getField? "id" _).bind Json.asStr?))) _ = _
    rw [hid]
    rfl

/-- The entries after a cursor are those of a lower sequence. -/
theorem entries_after {cursor : Json} {c : Option (Int ×ₗ String)}
    (hc : Marks (s.audit.reverse.map .entry) cursor c) :
    after Listed.key c (s.audit.reverse.map .entry)
      = (s.audit.reverse.filter fun e => (Listing.sequenceOf cursor).all
          fun sequence => decide (e.sequence < sequence)).map .entry := by
  unfold after
  rw [List.filter_map]
  refine congrArg (List.map Listed.entry) (List.filter_congr fun e _ => ?_)
  cases hc with
  | start => rfl
  | after ha =>
      obtain ⟨last, _, rfl⟩ := List.mem_map.mp ha
      refine decide_eq_decide.mpr ?_
      show toLex ((e.sequence : Int), "") < toLex ((last.sequence : Int), "")
        ↔ e.sequence < last.sequence
      rw [Prod.Lex.toLex_lt_toLex]
      simp

/-- **A PAGE OF ENTRIES** has more behind it unless it ends with the first. -/
theorem entries_more {audit : List AuditEntry} (hlimit : 0 < limit)
    (hd : audit.Pairwise (fun a b => b.sequence < a.sequence))
    (hpos : ∀ e ∈ audit, 1 ≤ e.sequence)
    (hfirst : audit ≠ [] → ∃ e ∈ audit, e.sequence = 1) :
    (audit.take limit).getLast?.any (fun e => decide (e.sequence > 1))
      = decide (limit < audit.length) := by
  have hkey : Descending AuditEntry.sequence audit := hd
  by_cases hmore : limit < audit.length
  · have hlt := List.pairwise_iff_getElem.mp hd (limit - 1) limit (by omega)
      hmore (by omega)
    have hone := hpos _ (List.getElem_mem hmore)
    rw [decide_eq_true hmore, List.getLast?_take, if_neg (by omega),
      List.getElem?_eq_getElem (by omega)]
    exact decide_eq_true (by omega)
  · rw [decide_eq_false hmore, List.take_of_length_le (not_lt.mp hmore)]
    cases hlast : audit.getLast? with
    | none => rfl
    | some e =>
        obtain ⟨first, hmem, hone⟩ := hfirst (by
          rintro rfl
          exact nomatch hlast)
        have hle := hkey.last_le hlast hmem
        rw [hone] at hle
        exact decide_eq_false (by omega)

theorem auditPage_shows {cursor : Json} {c : Option (Int ×ₗ String)}
    {total : Json} {valid : Bool} (hn : Numbered s)
    (hlimit : 0 < limit ∧ limit ≤ 50)
    (hc : Marks (s.audit.reverse.map .entry) cursor c) :
    let entries := (s.audit.reverse.filter (fun e =>
      (Listing.sequenceOf cursor).all
        (fun sequence => decide (e.sequence < sequence)))).take limit
    let more := entries.getLast?.any (fun e => decide (e.sequence > 1))
    Shows actor .ownerAudit
      ((after Listed.key c (s.audit.reverse.map .entry)).take limit)
      (decide (limit < (after Listed.key c
        (s.audit.reverse.map .entry)).length))
      (Json.mkObj [("entries", .arr (entries.map Encode.auditEntry)),
        ("entries_total", total),
        ("next_cursor", Json.optNum (if more = true then
            entries.getLast?.map (fun e => (e.sequence : Int))
          else none)), ("has_more", .bool more),
        ("chain_valid", .bool valid)]) := by
  intro entries more
  rw [entries_after hc, List.length_map, ← List.map_take]
  have hmore : more = decide (limit < (s.audit.reverse.filter (fun e =>
      (Listing.sequenceOf cursor).all
        (fun sequence => decide (e.sequence < sequence)))).length) := by
    refine entries_more hlimit.1 ?_ ?_ ?_
    · refine List.Pairwise.filter _ ?_
      rw [List.pairwise_reverse]
      exact hn.pairwise
    · exact fun e he => hn.pos (List.mem_reverse.mp (List.mem_filter.mp he).1)
    · intro hne
      obtain ⟨e, he⟩ := List.exists_mem_of_ne_nil _ hne
      obtain ⟨hmem, hbelow⟩ := List.mem_filter.mp he
      obtain ⟨first, hfirst, hone⟩ := hn.first (List.mem_reverse.mp hmem)
      refine ⟨first, List.mem_filter.mpr ⟨List.mem_reverse.mpr hfirst, ?_⟩,
        hone⟩
      -- the first entry is not above one that the cursor lets through
      have hpos := hn.pos (List.mem_reverse.mp hmem)
      cases hcur : Listing.sequenceOf cursor with
      | none => rfl
      | some sequence =>
          rw [hcur] at hbelow
          have hlt : e.sequence < sequence := of_decide_eq_true hbelow
          exact decide_eq_true (by omega)
  refine ⟨?_, ?_, ?_⟩
  · unfold Listing.rows
    rw [Json.getField?_mkObj, List.map_map]
    rfl
  · unfold hasMore
    rw [Json.getField?_mkObj, ← hmore]
    rfl
  · intro hon a ha
    rw [← hmore] at hon
    rw [List.getLast?_map, Option.map_eq_some_iff] at ha
    obtain ⟨e, he, rfl⟩ := ha
    have he' : entries.getLast? = some e := he
    unfold nextCursor
    rw [Json.getField?_mkObj, hon, he']
    rfl

/-- **WHAT A PAGE REQUEST DOES**: it changes nothing, and it shows what
    follows its cursor to whoever may read the listing. -/
theorem page_served (host : Host) (h : Shelved w.state)
    (hlimit : 0 < limit ∧ limit ≤ 50)
    {listing : Listing} {cursor : Json} {c : Option (Int ×ₗ String)}
    (hc : Marks (listing.records w.state actor) cursor c) :
    wp (dispatch host actor (listing.request cursor limit))
      (fun page w' => w' = w ∧ Shows actor listing
        ((after Listed.key c (listing.records w.state actor)).take limit)
        (decide (limit < (after Listed.key c
          (listing.records w.state actor)).length)) page)
      (fun _ w' => w' = w ∧ listing.guard w.state actor ≠ .ok ⟨⟩) w := by
  -- the two listings of intents are one page of records
  have hintents : ∀ (visible : PurchaseIntent → Bool) (listing' : Listing),
      listing' ≠ .ownerAudit →
      Marks ((Listing.newestFirst w.state visible).map .intent) cursor c →
      wp (lift (transactionPage w.state visible
          (fun i => listing'.view actor (.intent i)) cursor.asStr? limit))
        (fun page w' => w' = w ∧ Shows actor listing'
          ((after Listed.key c ((Listing.newestFirst w.state visible).map
            .intent)).take limit)
          (decide (limit < (after Listed.key c ((Listing.newestFirst w.state
            visible).map .intent)).length)) page)
        (fun _ _ => False) w := by
    intro visible listing' hl hmark
    obtain ⟨page, hpage, hshows⟩ :=
      transactionPage_shows actor hl h.keyed hlimit hmark
    rw [hpage, wp_lift]
    refine ⟨fun _ h => (nomatch h), fun _ h => ?_⟩
    rw [← Except.ok.inj h]
    exact ⟨rfl, hshows⟩
  have hrefused : ∀ {x : Except TreasuryError Unit} {e : TreasuryError},
      x = .error e → x ≠ .ok ⟨⟩ := fun he hok => nomatch he.symm.trans hok
  cases listing with
  | transactions =>
      show wp (listTransactionsPage actor cursor.asStr? limit) _ _ w
      unfold listTransactionsPage
      rw [wp_bind, wp_readState, wp_bind, wp_lift]
      refine ⟨fun e he => ⟨rfl, hrefused he⟩, fun _ _ => ?_⟩
      exact wp_mono (hintents (isVisible actor) .transactions nofun hc)
        (fun _ _ h => h) (fun _ _ h => h.elim)
  | ownerTransactions =>
      show wp (ownerListTransactionsPage actor cursor.asStr? limit) _ _ w
      unfold ownerListTransactionsPage
      rw [wp_bind, wp_readState, wp_bind, wp_lift]
      refine ⟨fun e he => ⟨rfl, hrefused he⟩, fun _ _ => ?_⟩
      exact wp_mono (hintents (fun _ => true) .ownerTransactions nofun hc)
        (fun _ _ h => h) (fun _ _ h => h.elim)
  | ownerAudit =>
      show wp (ownerListAuditPage host actor (Listing.sequenceOf cursor) limit)
        _ _ w
      unfold ownerListAuditPage
      rw [wp_bind, wp_get, wp_bind, wp_lift]
      refine ⟨fun e he => ⟨rfl, hrefused he⟩, fun _ _ => ?_⟩
      rw [requirePageLimit_ok.mpr hlimit, wp_bind, wp_lift]
      refine ⟨fun _ h => (nomatch h), fun _ _ => ?_⟩
      exact (wp_pure _).mpr ⟨rfl, auditPage_shows h.numbered hlimit hc⟩

/-! ## A client that follows the cursor -/

/-- The rows a client collects with so many requests, if it gets to the
    end. -/
def follow (host : Host) (actor : Actor) (limit : Nat) (listing : Listing) :
    Nat → Json → World → Option (List Json)
  | 0, _, _ => none
  | n + 1, cursor, w =>
      match dispatch host actor (listing.request cursor limit) w with
      | .ok page w' =>
          if hasMore page = true then
            (follow host actor limit listing n (nextCursor page) w').map
              (listing.rows page ++ ·)
          else some (listing.rows page)
      | .error _ _ => none

/-- Rows a client collects, with any calls between two of its requests. -/
inductive Walk (host : Host) (actor : Actor) (limit : Nat)
    (listing : Listing) : World → Json → List Json → World → Prop where
  | last {w w' : World} {cursor page : Json}
      (hp : dispatch host actor (listing.request cursor limit) w
        = .ok page w') (hm : hasMore page = false) :
      Walk host actor limit listing w cursor (listing.rows page) w'
  | more {w w1 w2 w' : World} {cursor page : Json} {cs : List Call}
      {rest : List Json}
      (hp : dispatch host actor (listing.request cursor limit) w
        = .ok page w1) (hm : hasMore page = true)
      (hcs : Calls host w1 cs w2)
      (hrest : Walk host actor limit listing w2 (nextCursor page) rest w') :
      Walk host actor limit listing w cursor (listing.rows page ++ rest) w'

/-- The last record a page shows is the next cursor. -/
theorem Shows.last {listing : Listing} {l : List Listed} {page : Json}
    {c : Option (Int ×ₗ String)} (hlimit : 0 < limit)
    (hmore : limit < (after Listed.key c l).length)
    (h : Shows actor listing ((after Listed.key c l).take limit) true page) :
    ∃ a ∈ l, ((after Listed.key c l).take limit).getLast? = some a
      ∧ nextCursor page = a.name := by
  have hne : (after Listed.key c l).take limit ≠ [] := by
    rw [Ne, List.take_eq_nil_iff]
    rintro (h0 | h0)
    · omega
    · rw [h0] at hmore
      exact absurd hmore (Nat.not_lt_zero _)
  obtain ⟨a, ha⟩ := Option.ne_none_iff_exists'.mp
    (List.getLast?_eq_none_iff.not.mpr hne)
  exact ⟨a, (mem_after.mp (List.mem_of_mem_take (List.mem_of_getLast? ha))).1,
    ha, h.next rfl a ha⟩

/-- **FOLLOWING THE CURSOR ENDS**, and it shows what is after the cursor. -/
theorem follow_all (host : Host) (h : Shelved w.state)
    (hlimit : 0 < limit ∧ limit ≤ 50)
    {listing : Listing} (hg : listing.guard w.state actor = .ok ⟨⟩) {n : Nat}
    {cursor : Json} {c : Option (Int ×ₗ String)}
    (hc : Marks (listing.records w.state actor) cursor c)
    (hn : (after Listed.key c (listing.records w.state actor)).length < n) :
    follow host actor limit listing n cursor w
      = some ((after Listed.key c (listing.records w.state actor)).map
        (listing.view actor)) := by
  induction n generalizing cursor c with
  | zero => omega
  | succ n ih =>
      have hpage := page_served host h hlimit hc
      unfold wp at hpage
      unfold follow
      cases hrun : dispatch host actor (listing.request cursor limit) w with
      | error e w' =>
          rw [hrun] at hpage
          exact absurd hg hpage.2
      | ok page w' =>
          rw [hrun] at hpage
          obtain ⟨rfl, hshows⟩ := hpage
          have hd := h.descending actor listing
          generalize hl : listing.records w'.state actor = l at *
          show (if hasMore page = true then _ else _) = _
          rw [hshows.flag, hshows.rows]
          -- a page that is not the last goes on after its last row
          by_cases hmore : limit < (after Listed.key c l).length
          · rw [decide_eq_true hmore] at hshows ⊢
            obtain ⟨a, hmem, ha, hnext⟩ := hshows.last hlimit.1 hmore
            have hrest := hd.after_last ha
            rw [if_pos rfl, hnext, ih (.after hmem) (by
              rw [hrest, List.length_drop]
              omega), hrest, Option.map_some, ← List.map_append,
              List.take_append_drop]
          · rw [decide_eq_false hmore, if_neg Bool.false_ne_true,
              List.take_of_length_le (not_lt.mp hmore)]

/-- A world of a run, and what its records are recognised by. -/
structure Shelf (host : Host) (w : World) : Prop where
  kept : Kept w.state
  fits : Fits w
  chained : Chained host w.auditKey w.state.audit
  drawn : IdsDrawn host w

theorem Shelf.shelved (h : Shelf host w) : Shelved w.state :=
  ⟨h.kept.intents, h.chained.numbered⟩

theorem Shelf.calls {cs : List Call} (h : Shelf host w)
    (hcs : Calls host w cs v) : Shelf host v ∧ Path host anyLabel w v := by
  have hp := hcs.path h.kept h.fits
  obtain ⟨hk, hf⟩ := hcs.kept h.kept h.fits
  exact ⟨⟨hk, hf, hp.chained h.chained, hp.idsDrawn h.drawn⟩, hp⟩

theorem TreasuryRun.shelf {token : String} {w0 : World} {cs : List Call}
    (h : TreasuryRun host token w0 cs w) : Shelf host w :=
  ⟨h.kept.1, h.kept.2, h.chained, h.idsDrawn⟩

/-- A page request leaves the world as it is. -/
theorem page_still {listing : Listing} {cursor page : Json}
    (hp : dispatch host actor (listing.request cursor limit) w
      = .ok page w') : w' = w := by
  have h : wp (dispatch host actor (listing.request cursor limit))
      (fun _ w' => w' = w) (fun _ _ => True) w := by
    cases listing with
    | ownerAudit =>
        show wp (ownerListAuditPage host actor _ limit) _ _ w
        unfold ownerListAuditPage
        rw [wp_bind, wp_get]
        exact line_lift (fun _ => trivial) fun _ _ =>
          line_lift (fun _ => trivial) fun _ _ => (wp_pure _).mpr rfl
    | transactions =>
        show wp (listTransactionsPage actor _ limit) _ _ w
        unfold listTransactionsPage
        rw [wp_bind, wp_readState]
        exact line_lift (fun _ => trivial) fun _ _ =>
          (wp_lift _).mpr ⟨fun _ _ => trivial, fun _ _ => rfl⟩
    | ownerTransactions =>
        show wp (ownerListTransactionsPage actor _ limit) _ _ w
        unfold ownerListTransactionsPage
        rw [wp_bind, wp_readState]
        exact line_lift (fun _ => trivial) fun _ _ =>
          (wp_lift _).mpr ⟨fun _ _ => trivial, fun _ _ => rfl⟩
  unfold wp at h
  rw [hp] at h
  exact h

/-- A walk is a path. -/
theorem Walk.path {listing : Listing} {cursor : Json} {rows : List Json}
    (hwalk : Walk host actor limit listing w cursor rows w')
    (h : Shelf host w) : Path host anyLabel w w' := by
  induction hwalk with
  | last hp _ =>
      rw [page_still hp]
      exact .refl _
  | more hp _ hcs _ ih =>
      rw [page_still hp] at hcs
      obtain ⟨h', hpath⟩ := h.calls hcs
      exact hpath.trans (ih h')

/-- **A WALK READS** the records of its first page and of every later one. -/
theorem Walk.reading {listing : Listing} {cursor : Json}
    {c : Option (Int ×ₗ String)} {rows : List Json}
    (hwalk : Walk host actor limit listing w cursor rows w')
    (h : Shelf host w) (hlimit : 0 < limit ∧ limit ≤ 50)
    (hc : Marks (listing.records w.state actor) cursor c)
    (hfresh : FreshBelow host w'.drawn) :
    ∃ read, rows = read.map (listing.view actor)
      ∧ Paging.Reading Listed.key limit (listing.records w.state actor) c read
      ∧ ∀ a ∈ read, ∃ b ∈ listing.records w'.state actor, Same a b := by
  -- between two pages the records may grow, but none loses its place
  induction hwalk generalizing c with
  | @last w w' cursor page hp hm =>
      have hpage := page_served host h.shelved hlimit hc
      unfold wp at hpage
      rw [hp] at hpage
      obtain ⟨rfl, hshows⟩ := hpage
      have hle := of_decide_eq_false (hshows.flag.symm.trans hm)
      rw [hshows.rows, List.take_of_length_le (not_lt.mp hle)]
      exact ⟨_, rfl, .last (not_lt.mp hle),
        fun a ha => ⟨a, (mem_after.mp ha).1, rfl, rfl⟩⟩
  | @more w w1 w2 w' cursor page cs rest hp hm hcs hrest ih =>
      have hpage := page_served host h.shelved hlimit hc
      unfold wp at hpage
      rw [hp] at hpage
      obtain ⟨rfl, hshows⟩ := hpage
      obtain ⟨h2, hpath⟩ := h.calls hcs
      have hend := (hrest.path h2).advance.drawn
      have hkeep : ∀ {a : Listed}, a ∈ listing.records w1.state actor →
          ∃ b ∈ listing.records w2.state actor, Same a b :=
        hpath.records_kept (hfresh.mono hend) h.drawn
      have hmore := hshows.flag.symm.trans hm
      rw [hmore] at hshows
      obtain ⟨a, hmem, ha, hnext⟩ :=
        hshows.last hlimit.1 (of_decide_eq_true hmore)
      obtain ⟨a', hmem', hkey, hname⟩ := hkeep hmem
      rw [hnext, ← hname] at ih
      obtain ⟨read, hread, hreading, hlast⟩ := ih h2 (.after hmem') hfresh
      rw [hkey] at hreading
      refine ⟨_, ?_, .more ha ?_ (h2.shelved.descending actor listing) hreading, ?_⟩
      · rw [hshows.rows, hread, List.map_append]
      · intro b hb
        obtain ⟨b', hb', hsame⟩ := hkeep hb
        exact ⟨b', hb', hsame.1⟩
      · intro b hb
        rcases List.mem_append.mp hb with hb | hb
        · obtain ⟨b', hb', hsame⟩ :=
            hkeep (mem_after.mp (List.mem_of_mem_take hb)).1
          obtain ⟨b'', hb'', hsame'⟩ :=
            (hrest.path h2).records_kept hfresh h2.drawn hb'
          exact ⟨b'', hb'', hsame'.1.trans hsame.1, hsame'.2.trans hsame.2⟩
        · exact hlast b hb

/-- A row is called what its record is. -/
theorem nameOf_view {listing : Listing} {a b : Listed} (hsame : Same a b)
    (hb : b ∈ listing.records s actor) :
    listing.nameOf (listing.view actor a) = some a.name := by
  have hname := hsame.2
  cases listing with
  | ownerAudit =>
      obtain ⟨e, _, rfl⟩ := List.mem_map.mp hb
      cases a with
      | intent i => exact nomatch hname
      | entry e' => rfl
  | transactions =>
      obtain ⟨i, _, rfl⟩ := List.mem_map.mp hb
      cases a with
      | intent i' =>
          cases actor with
          | owner => exact name_ownerIntent i'
          | agent id => exact name_sanitizedIntent i'
      | entry e' => exact nomatch hname
  | ownerTransactions =>
      obtain ⟨i, _, rfl⟩ := List.mem_map.mp hb
      cases a with
      | intent i' => exact name_ownerIntent i'
      | entry e' => exact nomatch hname

/-- Two records of one name are at one place. -/
theorem Shelved.key_of_name (h : Shelved s) {listing : Listing}
    {a b : Listed} (ha : a ∈ listing.records s actor)
    (hb : b ∈ listing.records s actor) (hname : a.name = b.name) :
    a.key = b.key := by
  have hintents : ∀ visible : PurchaseIntent → Bool,
      a ∈ (Listing.newestFirst s visible).map Listed.intent →
      b ∈ (Listing.newestFirst s visible).map Listed.intent →
      a.key = b.key := by
    intro visible ha hb
    obtain ⟨i, hi, rfl⟩ := List.mem_map.mp ha
    obtain ⟨j, hj, rfl⟩ := List.mem_map.mp hb
    obtain ⟨⟨id, hget⟩, _⟩ := mem_newestFirst.mp hi
    obtain ⟨⟨id', hget'⟩, _⟩ := mem_newestFirst.mp hj
    have hid : i.id = j.id := Json.str.inj hname
    rw [h.keyed id i hget, h.keyed id' j hget'] at hid
    rw [hid, hget'] at hget
    rw [Option.some.inj hget]
  cases listing with
  | transactions => exact hintents _ ha hb
  | ownerTransactions => exact hintents _ ha hb
  | ownerAudit =>
      obtain ⟨e, _, rfl⟩ := List.mem_map.mp ha
      obtain ⟨e', _, rfl⟩ := List.mem_map.mp hb
      exact congrArg (fun n => toLex (n, "")) (Json.num.inj hname)

/-- **PAGES VISIT EVERYTHING ONCE.**  A client that starts without a cursor
    and follows it ends, with every record once and in the order of the
    listing; and whatever is called between two of its requests, it is shown
    no record twice and every record that was there when it began. -/
theorem pages_visit_once {token : String} {w0 : World} {cs : List Call}
    (hrun : TreasuryRun host token w0 cs w) (hlimit : 0 < limit ∧ limit ≤ 50)
    (listing : Listing) (actor : Actor) :
    Descending Listed.key (listing.records w.state actor)
      ∧ (listing.guard w.state actor = .ok ⟨⟩ →
        follow host actor limit listing
            ((listing.records w.state actor).length + 1) .null w
          = some ((listing.records w.state actor).map (listing.view actor)))
      ∧ ∀ rows w', Walk host actor limit listing w .null rows w' →
        FreshBelow host w'.drawn →
        (rows.map listing.nameOf).Nodup
          ∧ ∀ a ∈ listing.records w.state actor,
            some a.name ∈ rows.map listing.nameOf := by
  have h := hrun.shelf
  have hd := h.shelved.descending actor listing
  refine ⟨hd, fun hg => ?_, fun rows w' hwalk hfresh => ?_⟩
  · have hall := follow_all host h.shelved hlimit hg .start
      (n := (listing.records w.state actor).length + 1)
      (by rw [after_none]; exact Nat.lt_succ_self _)
    rw [after_none] at hall
    exact hall
  · obtain ⟨read, rfl, hreading, hlast⟩ :=
      hwalk.reading h hlimit .start hfresh
    have hpath := hwalk.path h
    have hend : Shelved w'.state :=
      ⟨(hpath.kept h.kept).intents, (hpath.chained h.chained).numbered⟩
    -- a row tells the name of the record it shows
    have hnames : ∀ a ∈ read, listing.nameOf (listing.view actor a)
        = some a.name := by
      intro a ha
      obtain ⟨b, hb, hsame⟩ := hlast a ha
      exact nameOf_view hsame hb
    refine ⟨?_, fun a ha => ?_⟩
    · rw [List.map_map, List.nodup_iff_pairwise_ne, List.pairwise_map]
      refine (hreading.descending hd).1.imp_of_mem fun {a b} ha hb hlt heq => ?_
      rw [Function.comp_apply, Function.comp_apply, hnames a ha, hnames b hb]
        at heq
      obtain ⟨a', ha', hkey, hname⟩ := hlast a ha
      obtain ⟨b', hb', hkey', hname'⟩ := hlast b hb
      have hsame := hend.key_of_name ha' hb'
        (hname.trans ((Option.some.inj heq).trans hname'.symm))
      rw [hkey, hkey'] at hsame
      exact absurd hlt (hsame ▸ lt_irrefl _)
    · obtain ⟨b, hb, hkey⟩ := hreading.covers hd
        (by rw [after_none]; exact ha)
      refine List.mem_map.mpr ⟨listing.view actor b,
        List.mem_map_of_mem hb, ?_⟩
      rw [hnames b hb]
      obtain ⟨a', ha', hsame⟩ := hpath.records_kept hfresh h.drawn ha
      obtain ⟨b', hb', hsame'⟩ := hlast b hb
      -- two records with one key at the end are the same
      have heq : a' = b' := List.inj_on_of_nodup_map
        (hend.descending actor listing).nodup ha' hb'
        (hsame.1.trans (hkey.symm.trans hsame'.1.symm))
      rw [← hsame.2, ← hsame'.2, heq]

/-- The agent of `opening` asks to buy again. -/
def buyAgain (key : String) : Call :=
  .request agentToken
    (.createPurchaseIntent { smallPurchase with idempotencyKey := key })

/-- The agent of `opening`. -/
def openingAgent : Actor := .agent (idOfDraw stillHost "agent" 4)

/-- The agent reads a page of one, buys again, and reads the next and last
    page. -/
def readsTwo (w : World) : Bool :=
  match Listing.transactions.guard w.state openingAgent,
    dispatch stillHost openingAgent (Listing.transactions.request .null 1) w with
  | .ok _, .ok page w1 =>
      match dispatch stillHost openingAgent
        (Listing.transactions.request (nextCursor page) 1)
        (exec stillHost (buyAgain "k3") w1) with
      | .error _ _ => false
      | .ok page' w' => hasMore page && !hasMore page'
          && decide (Fits (exec stillHost (buyAgain "k3") w1))
          && decide (w'.drawn ≤ 256 ^ 12)
  | _, _ => false

theorem pages_visit_once_buying : ∃ owner w0 w rows w',
    TreasuryRun stillHost owner w0
      (opening smallPurchase owner ++ [buyAgain "k2"]) w
    ∧ (follow stillHost openingAgent 1 .transactions
      ((Listing.transactions.records w.state openingAgent).length + 1)
      .null w).isSome = true
    ∧ Walk stillHost openingAgent 1 .transactions w .null rows w'
    ∧ (rows.map Listing.transactions.nameOf).Nodup := by
  have h : tryRun stillHost ⟨100000, "CAD"⟩
      (fun owner => opening smallPurchase owner ++ [buyAgain "k2"]) readsTwo
      = true := by
    decide +kernel
  obtain ⟨owner, w0, w, hrun, hcheck⟩ := tryRun_run h
  unfold readsTwo at hcheck
  split at hcheck
  · rename_i _ page w1 hg hpage
    split at hcheck
    · exact nomatch hcheck
    · rename_i page' w' hpage'
      simp only [Bool.and_eq_true, decide_eq_true_iff, Bool.not_eq_true']
        at hcheck
      obtain ⟨⟨⟨hmore, hlast⟩, hfits⟩, hdrawn⟩ := hcheck
      have hwalk := Walk.more hpage hmore (.snoc (buyAgain "k3") .nil hfits)
        (.last hpage' hlast)
      have hall := pages_visit_once hrun
        (show 0 < 1 ∧ 1 ≤ 50 by decide) .transactions openingAgent
      refine ⟨owner, w0, w, _, w', hrun, ?_, hwalk,
        (hall.2.2 _ _ hwalk (plainHost_fresh hdrawn)).1⟩
      rw [hall.2.1 hg]
      rfl
  · exact nomatch hcheck

end Treasury
