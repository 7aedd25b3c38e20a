import Mathlib.Data.List.Nodup
import SyntaxQuery.Cache

/-!
# What a cache holds

A call either finds a snapshot of its own source under its key, or parses the source and stores
what it gets (`parse_cases`), in two steps that each see the cache alone (`parse_eq_steps`). Nothing
else ever enters the cache: promoting a key and pushing out another one move and drop entries. So a
property that fresh snapshots have together with their keys is kept by all that the cache holds
(`Holds.parse`), however the digests collide.

Each key is held once, and no more keys than the capacity allows (`Tidy`).
-/

namespace SyntaxQuery.Cache

variable {κ : Type} {P : κ → Snapshot → Prop} {c : Cache κ}

/-- Every snapshot in the cache has the property, together with its key. -/
def Holds (P : κ → Snapshot → Prop) (c : Cache κ) : Prop :=
  ∀ e ∈ c.entries, P e.1 e.2.snapshot

theorem holds_empty (capacity : Nat) : (empty capacity).Holds P := by
  intro e he
  simp [empty] at he

variable [DecidableEq κ] {key : κ} {s : Stored}

theorem mem_of_find? (h : c.find? key = some s) : (key, s) ∈ c.entries := by
  unfold find? at h
  obtain ⟨e, he, rfl⟩ := Option.map_eq_some_iff.1 h
  have hkey : e.1 = key := by simpa using List.find?_some he
  rw [← hkey]
  exact List.mem_of_find?_eq_some he

theorem mem_of_mem_promote {e : κ × Stored} (h : e ∈ (c.promote key).entries) :
    e ∈ c.entries := by
  unfold promote at h
  split at h
  · exact h
  · rename_i s hs
    simp only [List.mem_cons, List.mem_filter] at h
    rcases h with rfl | h
    · exact mem_of_find? hs
    · exact h.1

theorem mem_of_mem_insert {e : κ × Stored} (h : e ∈ (c.insert key s).entries) :
    e = (key, s) ∨ (e ∈ c.entries ∧ e.1 ≠ key) := by
  have hmem := List.mem_of_mem_take h
  simpa only [List.mem_cons, List.mem_filter, decide_eq_true_eq] using hmem

theorem Holds.promote (h : c.Holds P) : (c.promote key).Holds P :=
  fun e he => h e (mem_of_mem_promote he)

theorem Holds.insert (h : c.Holds P) (hs : P key s.snapshot) : (c.insert key s).Holds P := by
  intro e he
  rcases mem_of_mem_insert he with rfl | ⟨he, -⟩
  · exact hs
  · exact h e he

section Keys

/-- The keys held, the most recent first. -/
def keys (c : Cache κ) : List κ := c.entries.map (·.1)

/-- No key is held twice, and the cache is not overfull. -/
structure Tidy (c : Cache κ) : Prop where
  nodup_keys : c.keys.Nodup
  length_le : c.entries.length ≤ c.capacity

/-- The cache when one more call has begun. -/
def counted (c : Cache κ) : Cache κ := { c with calls := c.calls + 1 }

omit [DecidableEq κ] in
theorem keys_counted (c : Cache κ) : c.counted.keys = c.keys := rfl

theorem find?_counted (c : Cache κ) (key : κ) : c.counted.find? key = c.find? key := rfl

omit [DecidableEq κ] in
theorem Tidy.counted (h : c.Tidy) : c.counted.Tidy := ⟨h.nodup_keys, h.length_le⟩

theorem mem_keys_iff : key ∈ c.keys ↔ ∃ s, c.find? key = some s := by
  constructor
  · intro h
    obtain ⟨e, he, rfl⟩ := List.mem_map.1 h
    have hsome : (c.entries.find? fun e' => e'.1 = e.1).isSome := by
      rw [List.find?_isSome]
      exact ⟨e, he, by simp⟩
    obtain ⟨e', he'⟩ := Option.isSome_iff_exists.1 hsome
    exact ⟨e'.2, by simp [find?, he']⟩
  · rintro ⟨s, hs⟩
    exact List.mem_map.2 ⟨_, mem_of_find? hs, rfl⟩

theorem map_filter_entries (c : Cache κ) (key : κ) :
    (c.entries.filter (·.1 ≠ key)).map (·.1) = c.keys.filter (· ≠ key) := by
  rw [keys, List.filter_map]
  rfl

theorem keys_promote_of_mem (h : key ∈ c.keys) :
    (c.promote key).keys = key :: c.keys.filter (· ≠ key) := by
  obtain ⟨s, hs⟩ := mem_keys_iff.1 h
  rw [← map_filter_entries]
  simp [promote, hs, keys]

theorem promote_of_not_mem (h : key ∉ c.keys) : c.promote key = c := by
  rcases hs : c.find? key with _ | s
  · simp [promote, hs]
  · exact absurd (mem_keys_iff.2 ⟨s, hs⟩) h

theorem keys_insert (c : Cache κ) (key : κ) (s : Stored) :
    (c.insert key s).keys = (key :: c.keys.filter (· ≠ key)).take c.capacity := by
  rw [← map_filter_entries]
  simp [insert, keys, List.map_take]

theorem capacity_promote (c : Cache κ) (key : κ) : (c.promote key).capacity = c.capacity := by
  unfold promote
  split <;> rfl

theorem length_cons_filter_le (h : key ∈ c.keys) :
    (key :: c.keys.filter (· ≠ key)).length ≤ c.entries.length := by
  have hlt : (c.keys.filter (· ≠ key)).length < c.keys.length := by
    rw [List.length_filter_lt_length_iff_exists]
    exact ⟨key, h, by simp⟩
  simp only [keys, List.length_map, List.length_cons] at hlt ⊢
  omega

theorem Tidy.promote (h : c.Tidy) (key : κ) : (c.promote key).Tidy := by
  by_cases hkey : key ∈ c.keys
  · have hlen : (c.promote key).entries.length = (c.promote key).keys.length := by simp [keys]
    refine ⟨?_, ?_⟩
    · rw [keys_promote_of_mem hkey, List.nodup_cons]
      exact ⟨by simp, h.nodup_keys.filter _⟩
    · rw [hlen, keys_promote_of_mem hkey, capacity_promote]
      exact Nat.le_trans (length_cons_filter_le hkey) h.length_le
  · rw [promote_of_not_mem hkey]
    exact h

theorem Tidy.insert (h : c.Tidy) (key : κ) (s : Stored) : (c.insert key s).Tidy := by
  refine ⟨?_, ?_⟩
  · rw [keys_insert]
    exact (List.take_sublist _ _).nodup (List.nodup_cons.2 ⟨by simp, h.nodup_keys.filter _⟩)
  · exact List.length_take_le _ _

end Keys

section Parse

variable (engine : Engine κ) (grammar : Grammar) (options : ParseOptions) (source : String)

theorem parse_of_capacity_eq_zero (hc : c.capacity = 0) :
    c.parse engine grammar options source =
      (fresh engine c.calls grammar options source, { c with calls := c.calls + 1 }) := by
  unfold parse
  rw [if_pos hc]

/-- The first step of a call: it looks its key up. -/
def look (c : Cache κ) : Option Stored × Cache κ :=
  c.counted.lookup (engine.digest (keyOctets grammar.name options.extra source)) grammar.name
    source

/-- The second step of a call that has found nothing: it parses the source, and stores what it
gets. -/
def store (c : Cache κ) (call : Nat) : Except ParseError Stored × Cache κ :=
  match fresh engine call grammar options source with
  | .ok s => (.ok s, c.insert (engine.digest (keyOctets grammar.name options.extra source)) s)
  | .error e => (.error e, c)

theorem parse_eq_steps (hc : c.capacity ≠ 0) :
    c.parse engine grammar options source =
      match c.look engine grammar options source with
      | (some s, c') => (.ok s, c')
      | (none, c') => c'.store engine grammar options source c.calls := by
  unfold parse
  rw [if_neg hc]
  rfl

/-- All that a call on a cache with capacity can do: find, fail or store. -/
theorem parse_cases (hc : c.capacity ≠ 0) {key : κ}
    (hkey : engine.digest (keyOctets grammar.name options.extra source) = key) :
    (∃ s, c.find? key = some s ∧ confirms grammar.name source s.snapshot
        ∧ c.parse engine grammar options source =
          (.ok s, promote { c with calls := c.calls + 1 } key))
      ∨ (∃ e, Snapshot.parse engine.parser grammar options source = .error e
        ∧ c.parse engine grammar options source =
          (.error e, promote { c with calls := c.calls + 1 } key))
      ∨ ∃ s, Snapshot.parse engine.parser grammar options source = .ok s
        ∧ c.parse engine grammar options source =
          (.ok ⟨c.calls, s⟩,
            (promote { c with calls := c.calls + 1 } key).insert key ⟨c.calls, s⟩) := by
  subst hkey
  unfold parse
  rw [if_neg hc]
  simp only [lookup]
  split
  · rename_i s c' hlookup
    simp only [Prod.mk.injEq, Option.filter_eq_some_iff] at hlookup
    obtain ⟨⟨hfind, hconf⟩, rfl⟩ := hlookup
    exact Or.inl ⟨s, hfind, hconf, rfl⟩
  · rename_i c' hlookup
    simp only [Prod.mk.injEq] at hlookup
    obtain ⟨-, rfl⟩ := hlookup
    unfold fresh
    cases hparse : Snapshot.parse engine.parser grammar options source with
    | error e => exact Or.inr (Or.inl ⟨e, rfl, rfl⟩)
    | ok s => exact Or.inr (Or.inr ⟨s, rfl, rfl⟩)

theorem Holds.parse (h : c.Holds P)
    (hfresh : ∀ s, Snapshot.parse engine.parser grammar options source = .ok s →
      P (engine.digest (keyOctets grammar.name options.extra source)) s) :
    (c.parse engine grammar options source).2.Holds P := by
  by_cases hc : c.capacity = 0
  · rw [parse_of_capacity_eq_zero engine grammar options source hc]
    exact h
  · have hcounted : Holds P { c with calls := c.calls + 1 } := h
    rcases parse_cases engine grammar options source hc rfl with
      ⟨s, -, -, heq⟩ | ⟨e, -, heq⟩ | ⟨s, hs, heq⟩
    · rw [heq]
      exact hcounted.promote
    · rw [heq]
      exact hcounted.promote
    · rw [heq]
      exact hcounted.promote.insert (hfresh s hs)

/-- The answer is a fresh parse, or a snapshot that is held under the key and confirmed. -/
theorem parse_answer :
    (c.parse engine grammar options source).1 = fresh engine c.calls grammar options source
      ∨ ∃ s, (engine.digest (keyOctets grammar.name options.extra source), s) ∈ c.entries
        ∧ confirms grammar.name source s.snapshot
        ∧ (c.parse engine grammar options source).1 = .ok s := by
  by_cases hc : c.capacity = 0
  · rw [parse_of_capacity_eq_zero engine grammar options source hc]
    exact Or.inl rfl
  · rcases parse_cases engine grammar options source hc rfl with
      ⟨s, hfind, hconf, heq⟩ | ⟨e, he, heq⟩ | ⟨s, hs, heq⟩
    · exact Or.inr ⟨s, mem_of_find? hfind, hconf, by rw [heq]⟩
    · refine Or.inl ?_
      rw [heq, fresh, he]
      rfl
    · refine Or.inl ?_
      rw [heq, fresh, hs]
      rfl

end Parse

end SyntaxQuery.Cache
