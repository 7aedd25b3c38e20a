import Mathlib.Data.List.Dedup
import Mathlib.Data.List.Induction
import SyntaxQuery.Proofs.Cache

/-!
# What was used least recently is forgotten

A call touches its key when it succeeds or finds the key held. The keys held are the keys touched
last, at most as many as the capacity allows, the latest first (`Tracks.keys_eq`), and under each
of them the cache holds what was last stored under it (`Tracks.stored`). One call keeps both
(`Tracks.ask`), so they hold after every run of calls. Which snapshot a call gives out can
therefore be read off what was touched and stored before (`least_recently_used`).
-/

namespace SyntaxQuery.Cache

variable {κ : Type}

section Lists

variable [DecidableEq κ]

theorem dedup_concat (l : List κ) (k : κ) :
    (l ++ [k]).dedup = l.dedup.filter (· ≠ k) ++ [k] := by
  induction l with
  | nil => simp
  | cons a l ih =>
    by_cases ha : a ∈ l
    · rw [List.cons_append, List.dedup_cons_of_mem (List.mem_append_left _ ha),
        List.dedup_cons_of_mem ha, ih]
    · by_cases hak : a = k
      · subst hak
        rw [List.cons_append, List.dedup_cons_of_mem (by simp), List.dedup_cons_of_notMem ha, ih]
        simp
      · rw [List.cons_append, List.dedup_cons_of_notMem (by simp [ha, hak]),
          List.dedup_cons_of_notMem ha, ih]
        simp [hak]

theorem exists_dedup_append_cons (before since : List κ) {k : κ} (hk : k ∉ since) :
    ∃ older, (before ++ k :: since).dedup = older ++ k :: since.dedup := by
  have hsuffix := List.suffix_union_right before (k :: since).dedup
  rw [← List.dedup_append, List.dedup_cons_of_notMem hk] at hsuffix
  obtain ⟨older, h⟩ := hsuffix
  exact ⟨older, h.symm⟩

omit [DecidableEq κ] in
theorem mem_take_append_cons_iff {l r : List κ} {k : κ} {n : Nat} (hk : k ∉ l) :
    k ∈ (l ++ k :: r).take n ↔ l.length < n := by
  rw [List.take_append, List.mem_append]
  constructor
  · rintro (h | h)
    · exact absurd (List.mem_of_mem_take h) hk
    · by_contra hn
      simp [show n - l.length = 0 by omega] at h
  · intro h
    obtain ⟨m, hm⟩ : ∃ m, n - l.length = m + 1 := ⟨n - l.length - 1, by omega⟩
    simp [hm]

theorem take_filter_take_succ (k : κ) : ∀ {l : List κ} (_ : l.Nodup) (n : Nat),
    ((l.take (n + 1)).filter (· ≠ k)).take n = (l.filter (· ≠ k)).take n
  | [], _, n => by simp
  | a :: l, hl, n => by
    rw [List.nodup_cons] at hl
    rw [List.take_succ_cons]
    by_cases ha : a = k
    · subst ha
      -- No later element is removed, so the rest is cut at `n` on both sides.
      have hself : ∀ {r : List κ}, r ⊆ l → r.filter (· ≠ a) = r := fun hr =>
        List.filter_eq_self.2 fun b hb => by simpa using ne_of_mem_of_not_mem (hr hb) hl.1
      rw [List.filter_cons_of_neg (by simp), List.filter_cons_of_neg (by simp),
        hself (List.take_subset n l), hself (List.Subset.refl l), List.take_take, Nat.min_self]
    · rw [List.filter_cons_of_pos (by simpa using ha), List.filter_cons_of_pos (by simpa using ha)]
      cases n with
      | zero => simp
      | succ n => rw [List.take_succ_cons, List.take_succ_cons, take_filter_take_succ k hl.2 n]

/-- Moving a key to the front of the first `n` of some distinct keys gives the same first `n` as
moving it to the front of all. -/
theorem take_cons_filter_take {l : List κ} (hl : l.Nodup) (k : κ) (n : Nat) :
    (k :: (l.take n).filter (· ≠ k)).take n = (k :: l.filter (· ≠ k)).take n := by
  cases n with
  | zero => simp
  | succ n => rw [List.take_succ_cons, List.take_succ_cons, take_filter_take_succ k hl n]

end Lists

/-- What a call asks for. -/
structure Ask where
  grammar : Grammar
  options : ParseOptions
  source : String

/-- What a call did. -/
structure Event (κ : Type) where
  number : Nat
  key : κ
  /-- Whether the key was held when the call began. -/
  found : Bool
  answer : Except ParseError Stored

namespace Event

/-- A call touches its key when it succeeds or finds the key held. -/
def touches (e : Event κ) : Bool := e.found || e.answer.isOk

/-- A call stores the snapshot that it has made itself. -/
def stored (e : Event κ) : Option Stored := e.answer.toOption.filter (·.madeBy = e.number)

end Event

/-- The keys touched, the latest last. -/
def touched (past : List (Event κ)) : List κ := (past.filter Event.touches).map (·.key)

section Past

variable [DecidableEq κ]

/-- The snapshot that was stored last under a key. -/
def lastStored (past : List (Event κ)) (key : κ) : Option Stored :=
  ((past.filter (·.key = key)).filterMap Event.stored).getLast?

/-- The key was touched, and fewer than `capacity` other keys since it was touched last. -/
def Recent (capacity : Nat) (past : List (Event κ)) (key : κ) : Prop :=
  ∃ before since, touched past = before ++ key :: since ∧ key ∉ since
    ∧ since.dedup.length < capacity

theorem recent_iff {capacity : Nat} {past : List (Event κ)} {key : κ} :
    Recent capacity past key ↔ key ∈ (touched past).dedup.reverse.take capacity := by
  have hplace : ∀ {before since : List κ}, key ∉ since →
      (key ∈ (before ++ key :: since).dedup.reverse.take capacity
        ↔ since.dedup.length < capacity) := by
    intro before since hsince
    obtain ⟨older, holder⟩ := exists_dedup_append_cons before since hsince
    rw [holder, List.reverse_append, List.reverse_cons, List.append_assoc, List.singleton_append,
      mem_take_append_cons_iff (by simpa using hsince), List.length_reverse]
  constructor
  · rintro ⟨before, since, htouched, hsince, hlen⟩
    rw [htouched]
    exact (hplace hsince).2 hlen
  · intro h
    have hmem : key ∈ (touched past).reverse := by simpa using List.mem_of_mem_take h
    -- The last touch is the first from the end.
    obtain ⟨since, before, hsplit, hsince⟩ := List.eq_append_cons_of_mem hmem
    have htouched : touched past = before.reverse ++ key :: since.reverse := by
      rw [← List.reverse_reverse (touched past), hsplit]
      simp
    rw [htouched] at h
    exact ⟨_, _, htouched, by simpa using hsince, (hplace (by simpa using hsince)).1 h⟩

theorem lastStored_concat (past : List (Event κ)) (e : Event κ) (key : κ) :
    lastStored (past ++ [e]) key
      = (if e.key = key then e.stored else none).or (lastStored past key) := by
  unfold lastStored
  rw [List.filter_append, List.filterMap_append, List.getLast?_append]
  by_cases hkey : e.key = key
  · rcases hs : e.stored with _ | s <;> simp [hkey, hs]
  · simp [hkey]

omit [DecidableEq κ] in
theorem touched_concat (past : List (Event κ)) (e : Event κ) :
    touched (past ++ [e]) = touched past ++ if e.touches then [e.key] else [] := by
  unfold touched
  by_cases ht : e.touches <;> simp [ht]

end Past

section Calls

variable [DecidableEq κ] (engine : Engine κ)

def Ask.key (a : Ask) : κ :=
  engine.digest (keyOctets a.grammar.name a.options.extra a.source)

/-- Make a call. -/
def ask (c : Cache κ) (a : Ask) : Except ParseError Stored × Cache κ :=
  c.parse engine a.grammar a.options a.source

/-- What a call does. -/
def observe (c : Cache κ) (a : Ask) : Event κ where
  number := c.calls
  key := a.key engine
  found := (c.find? (a.key engine)).isSome
  answer := (c.ask engine a).1

/-- The cache after calls. -/
def after (c : Cache κ) (asks : List Ask) : Cache κ :=
  asks.foldl (fun c a => (c.ask engine a).2) c

/-- What calls do one after another, call `i` at place `i`. -/
def history (c : Cache κ) : List Ask → List (Event κ)
  | [] => []
  | a :: rest => c.observe engine a :: history (c.ask engine a).2 rest

theorem after_concat (c : Cache κ) (asks : List Ask) (a : Ask) :
    c.after engine (asks ++ [a]) = ((c.after engine asks).ask engine a).2 := by
  simp [after]

theorem history_concat (c : Cache κ) (asks : List Ask) (a : Ask) :
    c.history engine (asks ++ [a])
      = c.history engine asks ++ [(c.after engine asks).observe engine a] := by
  induction asks generalizing c with
  | nil => rfl
  | cons b rest ih =>
    rw [List.cons_append, history, ih, history]
    rfl

theorem length_history (c : Cache κ) (asks : List Ask) :
    (c.history engine asks).length = asks.length := by
  induction asks generalizing c with
  | nil => rfl
  | cons a rest ih => rw [history, List.length_cons, ih, List.length_cons]

end Calls

section Step

variable [DecidableEq κ] {c : Cache κ} {key : κ} {s : Stored}

theorem filter_keys_promote (c : Cache κ) (key : κ) :
    (c.promote key).keys.filter (· ≠ key) = c.keys.filter (· ≠ key) := by
  by_cases hkey : key ∈ c.keys
  · rw [keys_promote_of_mem hkey, List.filter_cons_of_neg (by simp), List.filter_filter]
    simp
  · rw [promote_of_not_mem hkey]

/-- Making a key the most recent one drops nothing. -/
theorem Tidy.perm_promote (h : c.Tidy) (key : κ) : (c.promote key).entries.Perm c.entries := by
  rcases hs : c.find? key with _ | s
  · simp [Cache.promote, hs]
  · have hmem := mem_of_find? hs
    have hfilter : c.entries.filter (·.1 ≠ key) = c.entries.erase (key, s) := by
      rw [(List.Nodup.of_map _ h.nodup_keys).erase_eq_filter]
      refine List.filter_congr fun e he => ?_
      have hiff : e.1 = key ↔ e = (key, s) :=
        ⟨fun hkey => List.inj_on_of_nodup_map h.nodup_keys he hmem hkey, fun heq => by rw [heq]⟩
      rw [Bool.eq_iff_iff]
      simp [hiff]
    simp only [Cache.promote, hs]
    rw [hfilter]
    exact (List.perm_cons_erase hmem).symm

theorem ask_of_confirmed (engine : Engine κ) (hc : c.capacity ≠ 0) (a : Ask)
    (hfind : c.find? (a.key engine) = some s) (hconf : confirms a.grammar.name a.source s.snapshot) :
    (c.ask engine a).1 = .ok s := by
  have hlook : (c.look engine a.grammar a.options a.source)
      = (some s, c.counted.promote (a.key engine)) := by
    unfold Ask.key at hfind
    simp [look, lookup, find?_counted, hfind, Option.filter_some, hconf, Ask.key]
  rw [ask, parse_eq_steps engine a.grammar a.options a.source hc, hlook]

/-- All that a call can do: find, fail or store. A cache without room stores nothing. -/
theorem Tidy.ask_cases (h : c.Tidy) (engine : Engine κ) (a : Ask) :
    (∃ s, c.find? (a.key engine) = some s ∧ confirms a.grammar.name a.source s.snapshot
        ∧ c.ask engine a = (.ok s, c.counted.promote (a.key engine)))
      ∨ (∃ e, Snapshot.parse engine.parser a.grammar a.options a.source = .error e
        ∧ c.ask engine a = (.error e, c.counted.promote (a.key engine)))
      ∨ ∃ s, Snapshot.parse engine.parser a.grammar a.options a.source = .ok s
        ∧ c.ask engine a = (.ok ⟨c.calls, s⟩,
            (c.counted.promote (a.key engine)).insert (a.key engine) ⟨c.calls, s⟩) := by
  by_cases hc : c.capacity = 0
  · have hentries : c.entries = [] := by
      have := h.length_le
      exact List.length_eq_zero_iff.1 (by omega)
    have hkeep : c.counted.promote (a.key engine) = c.counted :=
      promote_of_not_mem (by simp [keys, Cache.counted, hentries])
    rw [hkeep, ask, parse_of_capacity_eq_zero engine a.grammar a.options a.source hc, fresh]
    rcases Snapshot.parse engine.parser a.grammar a.options a.source with e | s
    · exact Or.inr (Or.inl ⟨e, rfl, rfl⟩)
    · refine Or.inr (Or.inr ⟨s, rfl, ?_⟩)
      simp [Cache.insert, Cache.counted, hc, hentries, Except.map]
  · exact parse_cases engine a.grammar a.options a.source hc rfl

end Step

section Run

variable [DecidableEq κ] {capacity : Nat} {past : List (Event κ)} {c : Cache κ}

theorem Tidy.ask (h : c.Tidy) (engine : Engine κ) (a : Ask) : (c.ask engine a).2.Tidy := by
  rcases h.ask_cases engine a with ⟨s, -, -, heq⟩ | ⟨e, -, heq⟩ | ⟨s, -, heq⟩
  · rw [heq]
    exact h.counted.promote _
  · rw [heq]
    exact h.counted.promote _
  · rw [heq]
    exact (h.counted.promote _).insert _ _

/-- A touch brings the key to the front, and the last key goes if there is no room for it. -/
theorem Tidy.keys_ask (h : c.Tidy) (engine : Engine κ) (a : Ask) :
    (c.ask engine a).2.keys = if (c.observe engine a).touches then
      (a.key engine :: c.keys.filter (· ≠ a.key engine)).take c.capacity else c.keys := by
  have hfront : a.key engine ∈ c.keys → (c.counted.promote (a.key engine)).keys
      = (a.key engine :: c.keys.filter (· ≠ a.key engine)).take c.capacity := by
    intro hkey
    rw [keys_promote_of_mem (c := c.counted) hkey, keys_counted, List.take_of_length_le]
    exact Nat.le_trans (length_cons_filter_le hkey) h.length_le
  rcases h.ask_cases engine a with ⟨s, hfind, -, heq⟩ | ⟨e, -, heq⟩ | ⟨s, -, heq⟩
  · rw [if_pos (by simp [Event.touches, observe, hfind]), heq]
    exact hfront (mem_keys_iff.2 ⟨s, hfind⟩)
  · by_cases hkey : a.key engine ∈ c.keys
    · obtain ⟨s, hfind⟩ := mem_keys_iff.1 hkey
      rw [if_pos (by simp [Event.touches, observe, hfind]), heq]
      exact hfront hkey
    · have hfind : c.find? (a.key engine) = none :=
        Option.eq_none_iff_forall_ne_some.2 fun s hs => hkey (mem_keys_iff.2 ⟨s, hs⟩)
      rw [if_neg (by simp [Event.touches, observe, hfind, heq, Except.isOk, Except.toBool]), heq]
      show (c.counted.promote (a.key engine)).keys = c.keys
      rw [promote_of_not_mem (c := c.counted) hkey, keys_counted]
  · rw [if_pos (by simp [Event.touches, observe, heq, Except.isOk, Except.toBool]), heq]
    show ((c.counted.promote (a.key engine)).insert (a.key engine) _).keys = _
    rw [keys_insert, filter_keys_promote, keys_counted, capacity_promote]
    rfl

/-- The cache holds what the calls of the past have left in it. -/
structure Tracks (capacity : Nat) (past : List (Event κ)) (c : Cache κ) : Prop where
  tidy : c.Tidy
  capacity_eq : c.capacity = capacity
  calls_eq : c.calls = past.length
  keys_eq : c.keys = (touched past).dedup.reverse.take capacity
  stored : ∀ e ∈ c.entries, lastStored past e.1 = some e.2
  numbers_eq : past.map (·.number) = List.range past.length

namespace Tracks

theorem empty (capacity : Nat) : Tracks capacity [] (empty capacity : Cache κ) where
  tidy := ⟨List.nodup_nil, Nat.zero_le _⟩
  capacity_eq := rfl
  calls_eq := rfl
  keys_eq := by simp [keys, Cache.empty, touched]
  stored := by simp [Cache.empty]
  numbers_eq := rfl

theorem madeBy_lt (h : Tracks capacity past c) {key : κ} {s : Stored}
    (hs : lastStored past key = some s) : s.madeBy < past.length := by
  have hmem := List.mem_of_getLast? hs
  obtain ⟨e, he, hstored⟩ := List.mem_filterMap.1 hmem
  rw [Event.stored, Option.filter_eq_some_iff, decide_eq_true_eq] at hstored
  have hnumber := List.mem_map_of_mem (f := (·.number)) (List.mem_filter.1 he).1
  rw [h.numbers_eq, List.mem_range] at hnumber
  rw [hstored.2]
  exact hnumber

theorem find?_lt (h : Tracks capacity past c) {key : κ} {s : Stored} (hs : c.find? key = some s) :
    s.madeBy < c.calls := by
  rw [h.calls_eq]
  exact h.madeBy_lt (h.stored _ (mem_of_find? hs))

/-- What is held after a call was held before and not replaced, or has been stored by it. -/
theorem mem_ask (h : Tracks capacity past c) (engine : Engine κ) (a : Ask) {e : κ × Stored}
    (he : e ∈ (c.ask engine a).2.entries) :
    (e ∈ c.entries ∧ (a.key engine = e.1 → (c.observe engine a).stored = none))
      ∨ (a.key engine = e.1 ∧ (c.observe engine a).stored = some e.2) := by
  rcases h.tidy.ask_cases engine a with ⟨s, hfind, -, heq⟩ | ⟨_, -, heq⟩ | ⟨s, -, heq⟩
  · have hlt := h.find?_lt hfind
    rw [heq] at he
    refine Or.inl ⟨mem_of_mem_promote (c := c.counted) he, fun _ => ?_⟩
    simp [Event.stored, observe, heq, Except.toOption, Option.filter_some, Nat.ne_of_lt hlt]
  · rw [heq] at he
    refine Or.inl ⟨mem_of_mem_promote (c := c.counted) he, fun _ => ?_⟩
    simp [Event.stored, observe, heq, Except.toOption]
  · rw [heq] at he
    rcases mem_of_mem_insert he with rfl | ⟨he, hne⟩
    · refine Or.inr ⟨rfl, ?_⟩
      simp [Event.stored, observe, heq, Except.toOption, Option.filter_some]
    · exact Or.inl ⟨mem_of_mem_promote (c := c.counted) he, fun hkey => absurd hkey.symm hne⟩

theorem ask (h : Tracks capacity past c) (engine : Engine κ) (a : Ask) :
    Tracks capacity (past ++ [c.observe engine a]) (c.ask engine a).2 := by
  have hframe : (c.ask engine a).2.capacity = c.capacity
      ∧ (c.ask engine a).2.calls = c.calls + 1 := by
    rcases h.tidy.ask_cases engine a with ⟨s, -, -, heq⟩ | ⟨e, -, heq⟩ | ⟨s, -, heq⟩ <;>
      rw [heq] <;> unfold promote <;> split <;> exact ⟨rfl, rfl⟩
  refine ⟨h.tidy.ask engine a, hframe.1.trans h.capacity_eq, ?_, ?_, fun e he => ?_, ?_⟩
  · rw [hframe.2, h.calls_eq, List.length_append, List.length_singleton]
  · rw [h.tidy.keys_ask engine a, touched_concat]
    split_ifs
    · rw [h.capacity_eq, h.keys_eq,
        take_cons_filter_take (List.nodup_reverse.2 (List.nodup_dedup _)), dedup_concat,
        List.reverse_append, List.reverse_singleton, List.singleton_append, List.filter_reverse]
      rfl
    · rw [List.append_nil]
      exact h.keys_eq
  · rw [lastStored_concat]
    rcases h.mem_ask engine a he with ⟨he, hnone⟩ | ⟨hkey, hstored⟩
    · rw [h.stored e he]
      split_ifs with hkey
      · rw [hnone hkey]
        rfl
      · rfl
    · rw [hstored, show (c.observe engine a).key = e.1 from hkey, if_pos rfl]
      rfl
  · rw [List.map_append, h.numbers_eq, List.length_append, List.length_singleton,
      List.range_succ, ← h.calls_eq]
    rfl

theorem run (capacity : Nat) (engine : Engine κ) (asks : List Ask) :
    Tracks capacity ((Cache.empty capacity).history engine asks)
      ((Cache.empty capacity).after engine asks) := by
  induction asks using List.reverseRecOn with
  | nil => exact Tracks.empty capacity
  | append_singleton asks a ih =>
    rw [history_concat, after_concat]
    exact ih.ask engine a

/-- What a call gives out from the past. -/
theorem ask_eq_ok_iff (h : Tracks capacity past c) (engine : Engine κ) (a : Ask) (s : Stored) :
    (c.ask engine a).1 = .ok s ∧ s.madeBy < past.length
      ↔ lastStored past (a.key engine) = some s ∧ Recent capacity past (a.key engine)
        ∧ s.snapshot.source = a.source ∧ s.snapshot.language = a.grammar.name := by
  have hconfirms : (confirms a.grammar.name a.source s.snapshot : Prop)
      ↔ s.snapshot.source = a.source ∧ s.snapshot.language = a.grammar.name := by
    simp [confirms]
  rw [← hconfirms, recent_iff, ← h.keys_eq]
  constructor
  · rintro ⟨hans, hlt⟩
    rcases h.tidy.ask_cases engine a with ⟨s', hfind, hconf, heq⟩ | ⟨e, -, heq⟩ | ⟨s', -, heq⟩
    · rw [heq, Except.ok.injEq] at hans
      subst hans
      exact ⟨h.stored _ (mem_of_find? hfind), mem_keys_iff.2 ⟨s', hfind⟩, hconf⟩
    · simp [heq] at hans
    · -- What the call makes itself does not come from the past.
      rw [heq, Except.ok.injEq] at hans
      subst hans
      simp only [h.calls_eq] at hlt
      omega
  · rintro ⟨hlast, hkey, hconf⟩
    obtain ⟨s', hfind⟩ := mem_keys_iff.1 hkey
    have hs' := h.stored _ (mem_of_find? hfind)
    rw [hlast, Option.some.injEq] at hs'
    subst hs'
    have hroom : c.capacity ≠ 0 := by
      have hpos := List.length_pos_of_mem (mem_of_find? hfind)
      have := h.tidy.length_le
      omega
    exact ⟨ask_of_confirmed engine hroom a hfind hconf, h.madeBy_lt hlast⟩

end Tracks

/-- Keys are told apart by the digest alone, so for a digest without collisions they are the digested
octets. -/
theorem least_recently_used (engine : Engine κ) (capacity : Nat) (asks : List Ask) :
    let c := (empty capacity).after engine asks
    let past := (empty capacity).history engine asks
    past.map (·.number) = List.range asks.length
      ∧ c.keys.Nodup ∧ c.keys = (touched past).dedup.reverse.take capacity
      ∧ (∀ e ∈ c.entries, lastStored past e.1 = some e.2)
      ∧ ∀ a : Ask,
        (∀ i s, (c.ask engine a).1 = .ok ⟨i, s⟩ ∧ i < asks.length
            ↔ lastStored past (a.key engine) = some ⟨i, s⟩ ∧ Recent capacity past (a.key engine)
              ∧ s.source = a.source ∧ s.language = a.grammar.name)
          ∧ ((∃ i s, (c.ask engine a).1 = .ok ⟨i, s⟩ ∧ i < asks.length)
            ∨ (c.ask engine a).1
                = (Snapshot.parse engine.parser a.grammar a.options a.source).map
                    fun s => ⟨asks.length, s⟩)
          ∧ ∀ e, (c.ask engine a).1 = .error e → (c.ask engine a).2.entries.Perm c.entries := by
  intro c past
  have h : Tracks capacity past c := Tracks.run capacity engine asks
  have hlen : past.length = asks.length := length_history engine (empty capacity) asks
  rw [← hlen]
  refine ⟨h.numbers_eq, h.tidy.nodup_keys, h.keys_eq, h.stored,
    fun a => ⟨fun i s => ?_, ?_, fun e he => ?_⟩⟩
  · exact h.ask_eq_ok_iff engine a ⟨i, s⟩
  · rcases parse_answer engine a.grammar a.options a.source with hfresh | ⟨s, hmem, -, hans⟩
    · right
      rw [← h.calls_eq]
      exact hfresh
    · exact Or.inl ⟨s.madeBy, s.snapshot, hans, h.madeBy_lt (h.stored _ hmem)⟩
  · rcases h.tidy.ask_cases engine a with ⟨s, -, -, heq⟩ | ⟨_, -, heq⟩ | ⟨s, -, heq⟩
    · simp [heq] at he
    · rw [heq]
      exact h.tidy.counted.perm_promote _
    · simp [heq] at he

end Run

end SyntaxQuery.Cache
