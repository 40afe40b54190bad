import ModularPipelines.Resources.History
import Mathlib.Algebra.Order.Ring.Int
import Mathlib.Algebra.BigOperators.Group.List.Basic

namespace ModularPipelines.Resources

open Library

variable {Clock : Type} {e : Encoding} {settings : CollectorSettings Clock}

def sizes (entries : List (Entry Clock)) : Int := (entries.map fun x => (x.size : Int)).sum

theorem sizes_append (xs ys : List (Entry Clock)) : sizes (xs ++ ys) = sizes xs + sizes ys := by
  rw [sizes, List.map_append, List.sum_append]
  rfl

theorem cursorOf_stamped (sample : List (String × Json)) (cursor : Int) :
    cursorOf (stamped sample cursor) = some cursor := by
  rw [cursorOf, stamped, Json.get?, Json.lookup_setMember_self]

namespace ResourceHistory

/-- Pruning drops the oldest entries, and what is left fits. -/
theorem pruneEntries_spec (settings : CollectorSettings Clock) (now : Clock) (h : ResourceHistory Clock)
    (entries : List (Entry Clock)) (hbytes : h.bytes = sizes entries) :
    ∃ dropped kept, entries = dropped ++ kept ∧ sizes kept ≤ settings.maxBufferBytes ∧
      pruneEntries settings now h entries =
        { h with entries := kept, bytes := sizes kept, evicted := h.evicted + dropped.length } := by
  induction entries generalizing h with
  | nil =>
    refine ⟨[], [], rfl, ?_, ?_⟩
    · simp [sizes]
    · rw [pruneEntries, ← hbytes]
      rfl
  | cons entry rest ih =>
    have hcons : sizes (entry :: rest) = entry.size + sizes rest := by rw [sizes, List.map_cons, List.sum_cons]; rfl
    rw [pruneEntries]
    split
    · next hdrop =>
      obtain ⟨dropped, kept, hsplit, hfits, hprune⟩ :=
        ih { h with bytes := h.bytes - entry.size, evicted := h.evicted + 1 } (by simp only; omega)
      refine ⟨entry :: dropped, kept, by rw [hsplit, List.cons_append], hfits, ?_⟩
      rw [hprune, List.length_cons, Nat.add_assoc, Nat.add_comm 1]
    · next hkeep =>
      rw [not_or, not_lt] at hkeep
      refine ⟨[], entry :: rest, rfl, hbytes ▸ hkeep.2, ?_⟩
      rw [← hbytes]
      rfl

/-- What the entries of a history are, given the samples offered to it so far. -/
structure Stored (e : Encoding) (offered : List (List (String × Json))) (h : ResourceHistory Clock) : Prop where
  counted : h.sequence = offered.length
  ordered : h.entries.Pairwise fun a b => a.cursor < b.cursor
  encoded : ∀ x ∈ h.entries, ∃ (k : Nat) (sample : List (String × Json)), offered[k]? = some sample ∧ x.cursor = k + 1 ∧
    e.dumps (stamped sample x.cursor) = some x.encoded
  bytes : h.bytes = sizes h.entries

structure Sound (e : Encoding) (settings : CollectorSettings Clock) (offered : List (List (String × Json)))
    (h : ResourceHistory Clock) : Prop extends Stored e offered h where
  bounded : h.bytes ≤ settings.maxBufferBytes

variable {offered : List (List (String × Json))} {h : ResourceHistory Clock}

theorem Stored.cursor_le (hs : Stored e offered h) {x : Entry Clock} (hx : x ∈ h.entries) :
    0 < x.cursor ∧ x.cursor ≤ h.sequence := by
  obtain ⟨k, sample, hk, hcursor, _⟩ := hs.encoded x hx
  have := (List.getElem?_eq_some_iff.mp hk).1
  have := hs.counted
  omega

theorem Stored.prune (hs : Stored e offered h) (settings : CollectorSettings Clock) (now : Clock) :
    Sound e settings offered (h.prune settings now) ∧ (h.prune settings now).sequence = h.sequence := by
  obtain ⟨dropped, kept, hsplit, hfits, hprune⟩ := pruneEntries_spec settings now h h.entries hs.bytes
  rw [ResourceHistory.prune, hprune]
  refine ⟨⟨⟨hs.counted, ?_, ?_, rfl⟩, hfits⟩, rfl⟩
  · exact (List.pairwise_append.mp (hsplit ▸ hs.ordered)).2.1
  · intro x hx
    exact hs.encoded x (hsplit ▸ List.mem_append_right dropped hx)

/-- A new sample is the next of those offered. -/
theorem Stored.offer (hs : Stored e offered h) (sample : List (String × Json)) :
    Stored e (offered ++ [sample]) { h with sequence := h.sequence + 1 } where
  counted := by
    have := hs.counted
    rw [List.length_append, List.length_singleton]
    simp only
    omega
  ordered := hs.ordered
  encoded x hx := by
    obtain ⟨k, old, hk, hcursor, htext⟩ := hs.encoded x hx
    refine ⟨k, old, ?_, hcursor, htext⟩
    rw [List.getElem?_append_left (List.getElem?_eq_some_iff.mp hk).1]
    exact hk
  bytes := hs.bytes

theorem Stored.push (hs : Stored e offered h) (entry : Entry Clock) (hlast : ∀ x ∈ h.entries, x.cursor < entry.cursor)
    (hentry : ∃ (k : Nat) (sample : List (String × Json)), offered[k]? = some sample ∧ entry.cursor = k + 1 ∧
      e.dumps (stamped sample entry.cursor) = some entry.encoded) :
    Stored e offered { h with entries := h.entries ++ [entry], bytes := h.bytes + entry.size } where
  counted := hs.counted
  ordered := by
    apply List.pairwise_append.mpr
    refine ⟨hs.ordered, List.pairwise_singleton _ _, ?_⟩
    intro a ha b hb
    rw [List.mem_singleton.mp hb]
    exact hlast a ha
  encoded x hx := by
    rcases List.mem_append.mp hx with hx | hx
    · exact hs.encoded x hx
    · rw [List.mem_singleton.mp hx]
      exact hentry
  bytes := by
    rw [sizes_append, ← hs.bytes]
    simp [sizes]

theorem Sound.append (hs : Sound e settings offered h) (sample : List (String × Json)) (now : Clock) :
    Sound e settings (offered ++ [sample]) (h.append e settings sample now) ∧
      (h.append e settings sample now).sequence = h.sequence + 1 := by
  have hnew := hs.toStored.offer sample
  unfold ResourceHistory.append
  simp only
  split
  · exact ⟨⟨hnew, hs.bounded⟩, rfl⟩
  · next encoded htext =>
    split
    · have hevicted : Stored e (offered ++ [sample]) { h with sequence := h.sequence + 1, evicted := h.evicted + 1 } :=
        ⟨hnew.counted, hnew.ordered, hnew.encoded, hnew.bytes⟩
      exact hevicted.prune settings now
    · refine (hnew.push _ ?_ ⟨offered.length, sample, by simp, ?_, htext⟩).prune settings now
      · intro x hx
        have := (hs.cursor_le hx).2
        simp only
        omega
      · rw [← hs.counted]

/-- The entries behind a cursor. -/
def behind (h : ResourceHistory Clock) (after : Int) : List (Entry Clock) := h.entries.filter fun x => after < x.cursor

def decoded (e : Encoding) (x : Entry Clock) : Json := (e.loads x.encoded).getD .null

theorem Stored.decodes (hs : Stored e offered h) {x : Entry Clock} (hx : x ∈ h.entries) :
    ∃ (k : Nat) (sample : List (String × Json)), offered[k]? = some sample ∧ x.cursor = k + 1 ∧
      e.loads x.encoded = some (decoded e x) ∧ decoded e x = stamped sample x.cursor := by
  obtain ⟨k, sample, hk, hcursor, htext⟩ := hs.encoded x hx
  have hloads := e.loads_dumps _ _ htext
  refine ⟨k, sample, hk, hcursor, ?_, ?_⟩
  · rw [decoded, hloads]
    rfl
  · rw [decoded, hloads]
    rfl

theorem Stored.loads_decoded (hs : Stored e offered h) {x : Entry Clock} (hx : x ∈ h.entries) :
    e.loads x.encoded = some (decoded e x) := by
  obtain ⟨_, _, _, _, hloads, _⟩ := hs.decodes hx
  exact hloads

theorem Stored.cursorOf_decoded (hs : Stored e offered h) {x : Entry Clock} (hx : x ∈ h.entries) :
    cursorOf (decoded e x) = some x.cursor := by
  obtain ⟨_, sample, _, _, _, hdecoded⟩ := hs.decodes hx
  rw [hdecoded, cursorOf_stamped]

/-- What the texts of some entries take of a page. -/
def texts (entries : List (Entry Clock)) : Nat := (entries.map fun x => x.encoded.utf8ByteSize).sum

/-- A page takes entries behind the cursor in order, at least the first of them, and ends at its limit or before an
entry that does not fit. -/
theorem takePage_spec (settings : CollectorSettings Clock) (after : Int) {limit : Int}
    (entries : List (Entry Clock)) (samples : List Json) (bytes : Nat)
    (hloads : ∀ x ∈ entries, e.loads x.encoded = some (decoded e x)) (hlimit : (samples.length : Int) < limit) :
    ∃ picked, picked <+: (entries.filter fun x => after < x.cursor) ∧
      takePage e settings after limit entries samples bytes = some (samples ++ picked.map (decoded e)) ∧
      (samples = [] → picked = [] → (entries.filter fun x => after < x.cursor) = []) ∧
      (samples.length + picked.length : Int) ≤ limit ∧
      ∀ x rest, (entries.filter fun x => after < x.cursor) = picked ++ x :: rest →
        (samples.length + picked.length : Int) = limit ∨
          settings.pageBytes < bytes + texts picked + x.encoded.utf8ByteSize := by
  induction entries generalizing samples bytes with
  | nil =>
    refine ⟨[], List.nil_prefix, by rw [takePage, List.map_nil, List.append_nil], fun _ _ => rfl, ?_, ?_⟩
    · simpa using hlimit.le
    · intro x rest hleft
      cases hleft
  | cons entry rest ih =>
    have hrest : ∀ x ∈ rest, e.loads x.encoded = some (decoded e x) := fun x hx => hloads x (List.mem_cons_of_mem _ hx)
    rw [takePage]
    by_cases hafter : entry.cursor ≤ after
    · rw [if_pos hafter, List.filter_cons_of_neg (by simpa using hafter)]
      exact ih samples bytes hrest hlimit
    · rw [if_neg hafter, List.filter_cons_of_pos (by simpa using hafter)]
      split
      · next hfull =>
        refine ⟨[], List.nil_prefix, by rw [List.map_nil, List.append_nil], fun hnil => absurd hnil hfull.1, ?_, ?_⟩
        · simpa using hlimit.le
        · intro x left hleft
          obtain ⟨rfl, -⟩ := List.cons.inj hleft
          exact Or.inr hfull.2
      · rw [hloads entry List.mem_cons_self]
        simp only
        split
        · next hlast =>
          rw [List.length_append] at hlast
          push_cast at hlast
          refine ⟨[entry], ?_, rfl, fun _ hnil => absurd hnil (List.cons_ne_nil _ _), hlast.le, fun _ _ _ => Or.inl hlast⟩
          exact List.cons_prefix_cons.mpr ⟨rfl, List.nil_prefix⟩
        · next hmore =>
          have hlength : ((samples ++ [decoded e entry]).length : Int) < limit := by
            rw [List.length_append, List.length_singleton] at hmore ⊢
            push_cast at hmore ⊢
            omega
          obtain ⟨picked, hfront, htake, _, hfits, hends⟩ :=
            ih (samples ++ [decoded e entry]) (bytes + entry.encoded.utf8ByteSize) hrest hlength
          have hcount : ((samples ++ [decoded e entry]).length + picked.length : Int) =
              samples.length + (entry :: picked).length := by
            rw [List.length_append, List.length_singleton, List.length_cons]
            push_cast
            omega
          have htexts : texts (entry :: picked) = entry.encoded.utf8ByteSize + texts picked := by
            rw [texts, List.map_cons, List.sum_cons]
            rfl
          refine ⟨entry :: picked, List.cons_prefix_cons.mpr ⟨rfl, hfront⟩, ?_, ?_, hcount ▸ hfits, ?_⟩
          · rw [htake, List.map_cons, List.append_assoc]
            rfl
          · exact fun _ hnil => absurd hnil (List.cons_ne_nil _ _)
          · intro x left hleft
            rw [← hcount, htexts, ← Nat.add_assoc]
            exact hends x left (List.cons.inj hleft).2

/-- Rising cursors skip one of those behind the first exactly when two neighbours do not follow each other. -/
theorem skips_spec {previous : Int} (gap : Bool) {samples : List Json} {cursors : List Int}
    (hcursors : samples.map cursorOf = cursors.map some) (hrising : (previous :: cursors).Pairwise (· < ·)) :
    ∃ g, skips previous gap samples = some g ∧
      (g = true ↔ gap = true ∨ ∃ c, previous < c ∧ c ≤ cursors.getLast?.getD previous ∧ c ∉ cursors) := by
  induction cursors generalizing previous gap samples with
  | nil =>
    rw [List.map_nil, List.map_eq_nil_iff] at hcursors
    subst hcursors
    refine ⟨gap, rfl, ?_⟩
    constructor
    · exact Or.inl
    · rintro (h | ⟨c, hc, hle, _⟩)
      · exact h
      · simp only [List.getLast?_nil, Option.getD_none] at hle
        omega
  | cons cursor cursors ih =>
    cases samples with
    | nil => simp at hcursors
    | cons sample samples =>
      rw [List.map_cons, List.map_cons, List.cons.injEq] at hcursors
      obtain ⟨hhead, hrest⟩ := List.pairwise_cons.mp hrising
      obtain ⟨g, hg, hiff⟩ := ih (gap || cursor != previous + 1) hcursors.2 hrest
      refine ⟨g, by rw [skips, hcursors.1]; exact hg, hiff.trans ?_⟩
      have hlt := hhead cursor List.mem_cons_self
      have hbehind := (List.pairwise_cons.mp hrest).1
      have hlast : (cursor :: cursors).getLast?.getD previous = cursors.getLast?.getD cursor := by
        rw [List.getLast?_cons]
        rfl
      have hle : cursor ≤ cursors.getLast?.getD cursor := by
        cases hl : cursors.getLast? with
        | none => rfl
        | some last => exact (hbehind last (List.mem_of_getLast? hl)).le
      rw [hlast, Bool.or_eq_true, bne_iff_ne, or_assoc]
      apply or_congr_right
      constructor
      · rintro (hne | ⟨c, hc, hcl, hmem⟩)
        · refine ⟨previous + 1, by omega, by omega, ?_⟩
          intro hmem
          rcases List.mem_cons.mp hmem with heq | hmem
          · exact hne heq.symm
          · have := hbehind _ hmem
            omega
        · refine ⟨c, by omega, hcl, ?_⟩
          intro hin
          rcases List.mem_cons.mp hin with heq | hin
          · omega
          · exact hmem hin
      · rintro ⟨c, hc, hcl, hmem⟩
        rw [List.mem_cons, not_or] at hmem
        by_cases hnext : cursor = previous + 1
        · exact Or.inr ⟨c, by omega, hcl, hmem.2⟩
        · exact Or.inl hnext

theorem Stored.oldest_le (hs : Stored e offered h) {x : Entry Clock} (hx : x ∈ h.entries) : h.oldest ≤ x.cursor := by
  have hordered := hs.ordered
  unfold oldest
  split
  · next hnil => rw [hnil] at hx; cases hx
  · next entry rest hcons =>
    rw [hcons] at hx hordered
    rcases List.mem_cons.mp hx with rfl | hx
    · exact le_rfl
    · exact ((List.pairwise_cons.mp hordered).1 x hx).le

theorem Stored.oldest_le_next (hs : Stored e offered h) : h.oldest ≤ h.sequence + 1 := by
  unfold oldest
  split
  · exact le_rfl
  · next entry rest hcons =>
    have := (hs.cursor_le (x := entry) (by rw [hcons]; exact List.mem_cons_self)).2
    omega

/-- A page delivers a run of the entries behind the cursor, and its gap tells whether a cursor was not delivered. -/
structure PageExact (e : Encoding) (settings : CollectorSettings Clock) (h : ResourceHistory Clock) (after limit : Int)
    (page : ResourcePage) (picked : List (Entry Clock)) : Prop where
  delivered : picked <+: h.behind after
  samples : page.samples = picked.map (decoded e)
  cursor : page.cursor = (picked.getLast?.map Entry.cursor).getD h.sequence
  progress : picked = [] → h.behind after = []
  limited : (picked.length : Int) ≤ limit
  ended : ∀ x rest, h.behind after = picked ++ x :: rest →
    (picked.length : Int) = limit ∨ settings.pageBytes < texts picked + x.encoded.utf8ByteSize
  gap : page.gap = true ↔
    (∃ c, after < c ∧ c ≤ page.cursor ∧ c ∉ picked.map Entry.cursor) ∨ h.sequence < after

theorem PageExact.mem {after limit : Int} {page : ResourcePage} {picked : List (Entry Clock)}
    (hp : PageExact e settings h after limit page picked) {x : Entry Clock} (hx : x ∈ picked) :
    x ∈ h.entries ∧ after < x.cursor := by
  have hmem := List.mem_filter.mp (hp.delivered.mem hx)
  exact ⟨hmem.1, of_decide_eq_true hmem.2⟩

theorem Stored.rising (hs : Stored e offered h) {after : Int} {picked : List (Entry Clock)}
    (hpicked : picked <+: h.behind after) : (after :: picked.map Entry.cursor).Pairwise (· < ·) := by
  apply List.pairwise_cons.mpr
  constructor
  · intro c hc
    obtain ⟨x, hx, rfl⟩ := List.mem_map.mp hc
    exact of_decide_eq_true (List.mem_filter.mp (hpicked.mem hx)).2
  · rw [List.pairwise_map]
    exact (hs.ordered.sublist List.filter_sublist).sublist hpicked.sublist

theorem PageExact.cursor_spec (hs : Stored e offered h) {after limit : Int} {page : ResourcePage}
    {picked : List (Entry Clock)} (hp : PageExact e settings h after limit page picked) (hafter : after ≤ h.sequence) :
    after ≤ page.cursor ∧ page.cursor ≤ h.sequence ∧ (∀ x ∈ picked, x.cursor ≤ page.cursor) ∧
      (page.samples = [] ∧ page.cursor = h.sequence ∨ after < page.cursor) := by
  rw [hp.samples, hp.cursor]
  cases hl : picked.getLast? with
  | none =>
    rw [List.getLast?_eq_none_iff] at hl
    subst hl
    refine ⟨hafter, le_rfl, ?_, Or.inl ⟨rfl, rfl⟩⟩
    intro x hx
    cases hx
  | some last =>
    have hin := List.mem_of_getLast? hl
    obtain ⟨hmem, hlt⟩ := hp.mem hin
    refine ⟨hlt.le, (hs.cursor_le hmem).2, ?_, Or.inr hlt⟩
    intro x hx
    have hrising := (List.pairwise_cons.mp (hs.rising hp.delivered)).2
    obtain ⟨front, hfront⟩ := List.getLast?_eq_some_iff.mp hl
    rw [hfront] at hx hrising
    rcases List.mem_append.mp hx with hx | hx
    · rw [List.map_append] at hrising
      exact ((List.pairwise_append.mp hrising).2.2 _ (List.mem_map_of_mem hx) _ (List.mem_singleton_self _)).le
    · rw [List.mem_singleton.mp hx]
      exact le_rfl

/-- The flag of a page is raised at an evicted or future cursor, at a hole between its samples, or when it is empty before
the end: exactly when a cursor up to its own was not delivered or the cursor is ahead of the history. -/
theorem Stored.gap_iff (hs : Stored e offered h) {after : Int} {picked : List (Entry Clock)}
    (hpicked : picked <+: h.behind after) :
    ((after < h.oldest - 1 ∨ after > h.sequence) ∨
        ∃ c, after < c ∧ c ≤ (picked.map Entry.cursor).getLast?.getD after ∧ c ∉ picked.map Entry.cursor) ∨
      (picked = [] ∧ h.sequence > after) ↔
    (∃ c, after < c ∧ c ≤ (picked.getLast?.map Entry.cursor).getD h.sequence ∧ c ∉ picked.map Entry.cursor) ∨
      h.sequence < after := by
  have hmem : ∀ x ∈ picked, x ∈ h.entries ∧ after < x.cursor := by
    intro x hx
    have hbehind := List.mem_filter.mp (hpicked.mem hx)
    exact ⟨hbehind.1, of_decide_eq_true hbehind.2⟩
  cases hl : picked.getLast? with
  | none =>
    rw [List.getLast?_eq_none_iff] at hl
    subst hl
    have hnext := hs.oldest_le_next
    simp only [List.map_nil, List.getLast?_nil, Option.map_none, Option.getD_none, List.not_mem_nil, not_false_eq_true,
      and_true, true_and]
    constructor
    · rintro ((h1 | ⟨c, h1, h2⟩) | h1)
      · by_cases hlt : h.sequence < after
        · exact Or.inr hlt
        · exact Or.inl ⟨after + 1, by omega, by omega⟩
      · omega
      · exact Or.inl ⟨after + 1, by omega, by omega⟩
    · rintro (⟨c, h1, h2⟩ | h1)
      · right
        omega
      · left
        left
        omega
  | some last =>
    have hin := List.mem_of_getLast? hl
    have hbounds := hs.cursor_le (hmem last hin).1
    have hafter := (hmem last hin).2
    have hne : picked ≠ [] := List.ne_nil_of_mem hin
    rw [List.getLast?_map, hl]
    simp only [Option.map_some, Option.getD_some, hne, false_and, or_false]
    constructor
    · rintro (h1 | h1)
      · by_cases hlt : h.sequence < after
        · exact Or.inr hlt
        · left
          have hold := hs.oldest_le (hmem last hin).1
          refine ⟨after + 1, by omega, by omega, ?_⟩
          intro hc
          obtain ⟨x, hx, hxc⟩ := List.mem_map.mp hc
          have := hs.oldest_le (hmem x hx).1
          omega
      · exact Or.inl h1
    · rintro (h1 | h1)
      · exact Or.inr h1
      · omega

theorem Stored.page_exact (hs : Stored e offered h) (settings : CollectorSettings Clock) (after : Int) {limit : Int}
    (hlimit : 1 ≤ limit) :
    ∃ page picked, h.page e settings after limit = some page ∧ PageExact e settings h after limit page picked := by
  obtain ⟨picked, hfront, htake, hprogress, hlimited, hended⟩ := takePage_spec settings after h.entries [] 0
    (fun x hx => hs.loads_decoded hx) (show ((0 : Nat) : Int) < limit by omega)
  have hmem : ∀ x ∈ picked, x ∈ h.entries := fun x hx => (List.mem_filter.mp (hfront.mem hx)).1
  have hcursors : (picked.map (decoded e)).map cursorOf = (picked.map Entry.cursor).map some := by
    rw [List.map_map, List.map_map]
    apply List.map_congr_left
    intro x hx
    exact hs.cursorOf_decoded (hmem x hx)
  obtain ⟨g, hskips, hgap⟩ := skips_spec (decide (after < h.oldest - 1 ∨ after > h.sequence)) hcursors
    (hs.rising hfront)
  have hlast : h.lastCursor (picked.map (decoded e)) = some ((picked.getLast?.map Entry.cursor).getD h.sequence) := by
    rw [lastCursor, List.getLast?_map]
    cases hl : picked.getLast? with
    | none => rfl
    | some x => exact hs.cursorOf_decoded (hmem x (List.mem_of_getLast? hl))
  rw [List.nil_append] at htake
  let page : ResourcePage :=
    { samples := picked.map (decoded e)
      cursor := (picked.getLast?.map Entry.cursor).getD h.sequence
      historyId := h.historyId
      gap := g || ((picked.map (decoded e)).isEmpty && decide (h.sequence > after))
      oldestCursor := h.oldest
      evictedSamples := h.evicted
      bufferBytes := h.bytes }
  simp only [List.length_nil, Nat.cast_zero, zero_add] at hlimited hended
  refine ⟨page, picked, ?_, hfront, rfl, rfl, fun hnil => hprogress rfl hnil, hlimited, hended, ?_⟩
  · rw [ResourceHistory.page, htake]
    simp only [Option.bind_eq_bind, Option.bind_some, hskips, hlast]
    rfl
  · simp only [page]
    rw [Bool.or_eq_true, hgap, decide_eq_true_eq, Bool.and_eq_true, List.isEmpty_iff, List.map_eq_nil_iff,
      decide_eq_true_eq]
    exact hs.gap_iff hfront

/-- A valid read answers with an exact page of the pruned history. -/
theorem Sound.read_exact (hs : Sound e settings offered h) {after limit : Int} (hafter : 0 ≤ after)
    (hlimit : 1 ≤ limit ∧ limit ≤ 1000) (now : Clock) :
    ∃ page picked, h.read e settings after limit now = (.ok page, h.prune settings now) ∧
      PageExact e settings (h.prune settings now) after limit page picked := by
  obtain ⟨page, picked, hpage, hexact⟩ := (hs.toStored.prune settings now).1.toStored.page_exact settings after hlimit.1
  refine ⟨page, picked, ?_, hexact⟩
  rw [ResourceHistory.read, if_neg (by omega), if_neg (not_not.mpr hlimit)]
  simp only [hpage]

theorem read_error {after limit : Int} (now : Clock) (hinvalid : after < 0 ∨ ¬ (1 ≤ limit ∧ limit ≤ 1000)) :
    ∃ error, h.read e settings after limit now = (.error error, h) := by
  unfold ResourceHistory.read
  split
  · exact ⟨_, rfl⟩
  · next hafter =>
    rw [if_pos (hinvalid.resolve_left hafter)]
    exact ⟨_, rfl⟩

theorem Sound.read (hs : Sound e settings offered h) (after limit : Int) (now : Clock) :
    Sound e settings offered (h.read e settings after limit now).2 ∧
      (h.read e settings after limit now).2.sequence = h.sequence := by
  by_cases hvalid : 0 ≤ after ∧ 1 ≤ limit ∧ limit ≤ 1000
  · obtain ⟨page, picked, hread, _⟩ := hs.read_exact hvalid.1 hvalid.2 now
    rw [hread]
    exact hs.toStored.prune settings now
  · obtain ⟨error, hread⟩ := @read_error _ e settings h after limit now (by omega)
    rw [hread]
    exact ⟨hs, rfl⟩

end ResourceHistory

namespace Session

open ResourceHistory

/-- What holds of a history and its client after any operations. -/
structure Kept (e : Encoding) (settings : CollectorSettings Clock) (s : Session Clock) : Prop where
  sound : Sound e settings s.offered s.history
  cursor : 0 ≤ s.cursor ∧ s.cursor ≤ s.history.sequence
  rising : ∃ cursors : List Int, s.received.map cursorOf = cursors.map some ∧ cursors.Pairwise (· < ·) ∧
    ∀ c ∈ cursors, c ≤ s.cursor
  offered : ∀ sample ∈ s.received, ∃ (k : Nat) (old : List (String × Json)), s.offered[k]? = some old ∧
    sample = stamped old (k + 1)

variable {s : Session Clock}

theorem Kept.start (e : Encoding) (settings : CollectorSettings Clock) (historyId : String) :
    Kept e settings (.start historyId) where
  sound := by
    refine ⟨⟨rfl, List.Pairwise.nil, ?_, rfl⟩, Int.natCast_nonneg _⟩
    intro x hx
    cases hx
  cursor := ⟨le_rfl, le_rfl⟩
  rising := ⟨[], rfl, List.Pairwise.nil, fun c hc => by cases hc⟩
  offered sample hsample := by cases hsample

/-- An exact page takes the client forward, up to the last cursor when nothing is left. -/
theorem poll_page (hk : s.Kept e settings) {limit : Int} (hlimit : 1 ≤ limit ∧ limit ≤ 1000) (now : Clock) :
    ∃ page picked, s.history.read e settings s.cursor limit now = (.ok page, s.history.prune settings now) ∧
      PageExact e settings (s.history.prune settings now) s.cursor limit page picked ∧
      s.poll e settings limit now =
        { s with
          history := s.history.prune settings now
          cursor := page.cursor
          received := s.received ++ page.samples } := by
  obtain ⟨page, picked, hread, hexact⟩ := hk.sound.read_exact hk.cursor.1 hlimit now
  refine ⟨page, picked, hread, hexact, ?_⟩
  rw [poll, hread]

/-- What a poll gives the client are retained samples behind all those it has. -/
theorem Kept.poll (hk : s.Kept e settings) (limit : Int) (now : Clock) :
    (s.poll e settings limit now).Kept e settings := by
  by_cases hlimit : 1 ≤ limit ∧ limit ≤ 1000
  · obtain ⟨page, picked, _, hexact, hpoll⟩ := poll_page hk hlimit now
    obtain ⟨hsound, hsequence⟩ := hk.sound.toStored.prune settings now
    obtain ⟨hforward, hle, hpicked, _⟩ := hexact.cursor_spec hsound.toStored (hsequence ▸ hk.cursor.2)
    obtain ⟨cursors, hcursors, hrising, hbound⟩ := hk.rising
    rw [hpoll]
    refine ⟨hsound, ⟨hk.cursor.1.trans hforward, hle⟩, ⟨cursors ++ picked.map Entry.cursor, ?_, ?_, ?_⟩, ?_⟩
    · rw [List.map_append, List.map_append, hcursors, hexact.samples, List.map_map, List.map_map]
      congr 1
      apply List.map_congr_left
      intro x hx
      exact hsound.cursorOf_decoded (hexact.mem hx).1
    · apply List.pairwise_append.mpr
      refine ⟨hrising, (List.pairwise_cons.mp (hsound.rising hexact.delivered)).2, ?_⟩
      intro a ha b hb
      obtain ⟨x, hx, rfl⟩ := List.mem_map.mp hb
      exact (hbound a ha).trans_lt (hexact.mem hx).2
    · intro c hc
      rcases List.mem_append.mp hc with hc | hc
      · exact (hbound c hc).trans hforward
      · obtain ⟨x, hx, rfl⟩ := List.mem_map.mp hc
        exact hpicked x hx
    · intro sample hsample
      rcases List.mem_append.mp hsample with hsample | hsample
      · exact hk.offered sample hsample
      · rw [hexact.samples] at hsample
        obtain ⟨x, hx, rfl⟩ := List.mem_map.mp hsample
        obtain ⟨k, old, hold, hcursor, _, hdecoded⟩ := hsound.decodes (hexact.mem hx).1
        exact ⟨k, old, hold, by rw [hdecoded, hcursor]⟩
  · obtain ⟨error, hread⟩ := @read_error _ e settings s.history s.cursor limit now (Or.inr hlimit)
    rw [Session.poll, hread]
    exact hk

theorem Kept.step (hk : s.Kept e settings) (operation : Operation Clock) :
    (s.step e settings operation).Kept e settings := by
  cases operation with
  | append sample now =>
    obtain ⟨hsound, hsequence⟩ := hk.sound.append sample now
    refine ⟨hsound, ⟨hk.cursor.1, ?_⟩, hk.rising, ?_⟩
    · have := hk.cursor.2
      simp only [Session.step]
      omega
    · intro sample' hsample
      obtain ⟨k, old, hold, heq⟩ := hk.offered sample' hsample
      refine ⟨k, old, ?_, heq⟩
      exact (List.getElem?_append_left (List.getElem?_eq_some_iff.mp hold).1).trans hold
  | read after limit now =>
    obtain ⟨hsound, hsequence⟩ := hk.sound.read after limit now
    refine ⟨hsound, ⟨hk.cursor.1, ?_⟩, hk.rising, hk.offered⟩
    have := hk.cursor.2
    simp only [Session.step]
    omega
  | poll limit now => exact hk.poll limit now

theorem kept_run (e : Encoding) (settings : CollectorSettings Clock) (historyId : String)
    (operations : List (Operation Clock)) : (run e settings historyId operations).Kept e settings := by
  have hall : ∀ s : Session Clock, s.Kept e settings → (operations.foldl (step e settings) s).Kept e settings := by
    induction operations with
    | nil => exact fun s hk => hk
    | cons operation rest ih => exact fun s hk => ih _ (hk.step operation)
  exact hall _ (Kept.start e settings historyId)

/-- The client's next page is its last, with the last sequence number. -/
def AtEnd (e : Encoding) (settings : CollectorSettings Clock) (s : Session Clock) (limit : Int) (now : Clock) : Prop :=
  ∃ page, (s.history.read e settings s.cursor limit now).1 = .ok page ∧ page.samples = [] ∧
    page.cursor = s.history.sequence

/-- Every page with samples takes the client nearer to the last sequence number. -/
theorem polls_end (asked : Nat → Int × Clock) (hasked : ∀ n, 1 ≤ (asked n).1 ∧ (asked n).1 ≤ 1000)
    (hk : s.Kept e settings) :
    ∃ n, (s.polls e settings asked n).AtEnd e settings (asked n).1 (asked n).2 ∧
      (s.polls e settings asked n).history.sequence = s.history.sequence := by
  induction hd : (s.history.sequence - s.cursor).toNat using Nat.strongRecOn generalizing s asked with
  | ind d ih =>
    obtain ⟨page, picked, hread, hexact, hpoll⟩ := poll_page hk (hasked 0) (asked 0).2
    obtain ⟨hsound, hsequence⟩ := hk.sound.toStored.prune settings (asked 0).2
    obtain ⟨_, hle, _, hend⟩ := hexact.cursor_spec hsound.toStored (hsequence ▸ hk.cursor.2)
    rcases hend with ⟨hempty, hlast⟩ | hforward
    · exact ⟨0, ⟨page, by rw [polls, hread], hempty, hlast.trans hsequence⟩, rfl⟩
    · have hnext := hk.poll (asked 0).1 (asked 0).2
      have hcursor : (s.poll e settings (asked 0).1 (asked 0).2).cursor = page.cursor := by rw [hpoll]
      have hseq : (s.poll e settings (asked 0).1 (asked 0).2).history.sequence = s.history.sequence := by
        rw [hpoll]
        exact hsequence
      obtain ⟨n, hn, hsame⟩ := ih _ (by rw [hcursor, hseq]; omega) (fun k => asked (k + 1))
        (fun k => hasked (k + 1)) hnext rfl
      exact ⟨n + 1, hn, hsame.trans hseq⟩

/-- After any operations the byte count is that of the entries and within its bound, the client has retained samples
under rising cursors, a read delivers the first retained samples behind its cursor up to its limit or bytes and has a gap
exactly when a cursor was not delivered, and polling alone comes to the end. -/
theorem history_reports_losses (e : Encoding) (settings : CollectorSettings Clock) (historyId : String)
    (operations : List (Operation Clock)) :
    let s := run e settings historyId operations
    (s.history.bytes = sizes s.history.entries ∧ s.history.bytes ≤ settings.maxBufferBytes) ∧
      ((∃ cursors : List Int, s.received.map cursorOf = cursors.map some ∧ cursors.Pairwise (· < ·)) ∧
        ∀ sample ∈ s.received, ∃ (k : Nat) (old : List (String × Json)), s.offered[k]? = some old ∧
          sample = stamped old (k + 1)) ∧
      (∀ after limit now, 0 ≤ after → 1 ≤ limit ∧ limit ≤ 1000 →
        ∃ page picked, (s.history.read e settings after limit now).1 = .ok page ∧
          picked <+: (s.history.prune settings now).behind after ∧
          picked.map (fun x => e.loads x.encoded) = page.samples.map some ∧
          (page.samples = [] → (s.history.prune settings now).behind after = []) ∧
          (picked.length : Int) ≤ limit ∧
          (∀ x rest, (s.history.prune settings now).behind after = picked ++ x :: rest →
            (picked.length : Int) = limit ∨ settings.pageBytes < texts picked + x.encoded.utf8ByteSize) ∧
          (page.gap = true ↔
            (∃ c, after < c ∧ c ≤ page.cursor ∧ ∀ sample ∈ page.samples, cursorOf sample ≠ some c) ∨
              ¬ s.Position after)) ∧
      ∀ asked : Nat → Int × Clock, (∀ n, 1 ≤ (asked n).1 ∧ (asked n).1 ≤ 1000) →
        ∃ n, (s.polls e settings asked n).AtEnd e settings (asked n).1 (asked n).2 ∧
          (s.polls e settings asked n).history.sequence = s.history.sequence := by
  intro s
  have hk : s.Kept e settings := kept_run e settings historyId operations
  obtain ⟨cursors, hcursors, hrising, _⟩ := hk.rising
  refine ⟨⟨hk.sound.bytes, hk.sound.bounded⟩, ⟨⟨cursors, hcursors, hrising⟩, hk.offered⟩, ?_,
    fun asked hasked => polls_end asked hasked hk⟩
  intro after limit now hafter hlimit
  obtain ⟨page, picked, hread, hexact⟩ := hk.sound.read_exact hafter hlimit now
  obtain ⟨hsound, hsequence⟩ := hk.sound.toStored.prune settings now
  refine ⟨page, picked, by rw [hread], hexact.delivered, ?_, ?_, hexact.limited, hexact.ended,
    hexact.gap.trans (or_congr (exists_congr fun c => ?_) ?_)⟩
  · rw [hexact.samples, List.map_map]
    apply List.map_congr_left
    intro x hx
    exact hsound.loads_decoded (hexact.mem hx).1
  · rw [hexact.samples]
    exact fun hnil => hexact.progress (List.map_eq_nil_iff.mp hnil)
  · apply and_congr_right
    intro _
    apply and_congr_right
    intro _
    rw [hexact.samples]
    constructor
    · intro hc sample hsample he
      obtain ⟨x, hx, rfl⟩ := List.mem_map.mp hsample
      rw [hsound.cursorOf_decoded (hexact.mem hx).1] at he
      exact hc (List.mem_map.mpr ⟨x, hx, Option.some.inj he⟩)
    · intro hc hmem
      obtain ⟨x, hx, rfl⟩ := List.mem_map.mp hmem
      exact hc _ (List.mem_map_of_mem hx) (hsound.cursorOf_decoded (hexact.mem hx).1)
  · rw [hsequence, hk.sound.counted, Position]
    omega

end Session

end ModularPipelines.Resources
