import SyntaxQuery.Proofs.Cache.Recency
import SyntaxQuery.Proofs.Json.Octets
import SyntaxQuery.Proofs.Source.Layout

/-!
# What a call gets for its own options

All that a cache holds was parsed by one of the calls made so far, under the key of that call
(`holds_parsedBy`). What a call finds is confirmed by its language and source alone, so its options
are respected only as far as the key tells them apart.

The key tells the extra kinds apart: each ends at its zero, so the digested octets of two calls with
one language and one source are the same only for the same kinds (`keyOctets_inj`). Hence a snapshot
that is found has the containers that were asked for (`ask_own_containers`).

The key does not know of the size limit. A source that is too large for a call is given out all the
same when a call with a larger limit has left it in the cache, and only then (`ask_oversize`).
-/

namespace SyntaxQuery

namespace Snapshot

variable {parser : Parser} {grammar : Grammar} {options : ParseOptions} {source : String}
  {s : Snapshot}

theorem parse_of_maxBytes_lt (parser : Parser) (grammar : Grammar)
    (h : options.maxBytes < source.utf8ByteSize) :
    parse parser grammar options source
      = .error (.tooLarge options.maxBytes source.utf8ByteSize) := by
  unfold parse
  rw [if_pos h]

theorem size_le_of_parse (h : parse parser grammar options source = .ok s) :
    source.utf8ByteSize ≤ options.maxBytes := by
  by_contra hlt
  rw [parse_of_maxBytes_lt parser grammar (not_le.1 hlt)] at h
  simp at h

/-- A source that is parsed under one limit is parsed alike under any that it keeps to. -/
theorem parse_eq_of_size_le (h : parse parser grammar options source = .ok s) {maxBytes : Nat}
    (hle : source.utf8ByteSize ≤ maxBytes) :
    parse parser grammar ⟨options.extra, maxBytes⟩ source = .ok s := by
  have hlimit := size_le_of_parse h
  unfold parse at h ⊢
  rw [if_neg (not_lt.2 hlimit)] at h
  rw [if_neg (not_lt.2 hle)]
  exact h

end Snapshot

namespace Cache

section Octets

/-- What is before the first zero, and what is behind it. -/
theorem eq_of_append_zero {a b x y : List UInt8} (ha : 0 ∉ a) (hb : 0 ∉ b)
    (h : a ++ 0 :: x = b ++ 0 :: y) : a = b ∧ x = y := by
  induction a generalizing b with
  | nil =>
    cases b with
    | nil => simpa using h
    | cons d b =>
      simp only [List.nil_append, List.cons_append, List.cons.injEq] at h
      simp [← h.1] at hb
  | cons c a ih =>
    cases b with
    | nil =>
      simp only [List.nil_append, List.cons_append, List.cons.injEq] at h
      simp [h.1] at ha
    | cons d b =>
      simp only [List.mem_cons, not_or] at ha hb
      simp only [List.cons_append, List.cons.injEq] at h
      obtain ⟨rfl, hrest⟩ := ih ha.2 hb.2 h.2
      exact ⟨by rw [h.1], hrest⟩

theorem kinds_inj {kinds kinds' : List String} (h : ∀ k ∈ kinds, '\x00' ∉ k.toList)
    (h' : ∀ k ∈ kinds', '\x00' ∉ k.toList)
    (heq : (kinds.flatMap fun k => k.toUTF8.toList ++ [0])
      = kinds'.flatMap fun k => k.toUTF8.toList ++ [0]) : kinds = kinds' := by
  induction kinds generalizing kinds' with
  | nil =>
    cases kinds' with
    | nil => rfl
    | cons k kinds' => simp at heq
  | cons k kinds ih =>
    cases kinds' with
    | nil => simp at heq
    | cons k' kinds' =>
      rw [List.forall_mem_cons] at h h'
      simp only [List.flatMap_cons, List.append_assoc, List.singleton_append] at heq
      obtain ⟨hk, hrest⟩ :=
        eq_of_append_zero (Json.not_mem_toUTF8 (by decide) h.1)
          (Json.not_mem_toUTF8 (by decide) h'.1) heq
      rw [Json.toUTF8_inj hk, ih h.2 h'.2 hrest]

theorem keyOctets_inj {language source : String} {kinds kinds' : List String}
    (h : ∀ k ∈ kinds, '\x00' ∉ k.toList) (h' : ∀ k ∈ kinds', '\x00' ∉ k.toList)
    (heq : keyOctets language kinds source = keyOctets language kinds' source) :
    kinds = kinds' := by
  unfold keyOctets at heq
  have hfront := List.append_cancel_left (List.append_cancel_right heq)
  exact kinds_inj h h' (List.cons.inj hfront).2

end Octets

section Runs

variable {κ : Type} [DecidableEq κ] (engine : Engine κ)

/-- The octets that a call digests. -/
def Ask.octets (a : Ask) : List UInt8 := keyOctets a.grammar.name a.options.extra a.source

/-- One of these calls has this key, and the snapshot is what it parses. -/
def ParsedBy (asks : List Ask) (key : κ) (s : Snapshot) : Prop :=
  ∃ a ∈ asks, a.key engine = key
    ∧ Snapshot.parse engine.parser a.grammar a.options a.source = .ok s

theorem holds_parsedBy (capacity : Nat) (asks : List Ask) :
    ((empty capacity).after engine asks).Holds (ParsedBy engine asks) := by
  induction asks using List.reverseRecOn with
  | nil => exact holds_empty capacity
  | append_singleton asks a ih =>
    rw [after_concat]
    refine Holds.parse engine a.grammar a.options a.source (fun e he => ?_) fun s hs => ?_
    · obtain ⟨b, hb, hkey, hparse⟩ := ih e he
      exact ⟨b, List.mem_append_left _ hb, hkey, hparse⟩
    · exact ⟨a, by simp, rfl, hs⟩

omit [DecidableEq κ] in
theorem map_fresh (call : Nat) (a : Ask) :
    (fresh engine call a.grammar a.options a.source).map (·.snapshot)
      = Snapshot.parse engine.parser a.grammar a.options a.source := by
  unfold fresh
  cases Snapshot.parse engine.parser a.grammar a.options a.source <;> rfl

/-- A call answers with what it parses itself, or with what a call with its key, its language and
its source has parsed before. -/
theorem ask_cases (capacity : Nat) (asks : List Ask) (a : Ask) :
    (((empty capacity).after engine asks).ask engine a).1.map (·.snapshot)
        = Snapshot.parse engine.parser a.grammar a.options a.source
      ∨ ∃ b ∈ asks, ∃ s, (((empty capacity).after engine asks).ask engine a).1 = .ok s
        ∧ b.key engine = a.key engine ∧ b.grammar.name = a.grammar.name ∧ b.source = a.source
        ∧ Snapshot.parse engine.parser b.grammar b.options b.source = .ok s.snapshot := by
  rcases parse_answer engine a.grammar a.options a.source with hfresh | ⟨s, hmem, hconf, hans⟩
  · left
    rw [ask, hfresh, map_fresh]
  · right
    obtain ⟨b, hb, hkey, hparse⟩ := holds_parsedBy engine capacity asks _ hmem
    simp only [confirms, Bool.and_eq_true, decide_eq_true_eq] at hconf
    refine ⟨b, hb, s, hans, hkey, ?_, ?_, hparse⟩
    · rw [← Snapshot.language_of_parse hparse]
      exact hconf.2
    · rw [← Snapshot.source_of_parse hparse]
      exact hconf.1

/-- Whatever was asked for before, a call gets the containers that it asks for itself. Languages go
by their names, and no two of the digested texts may collide with that of the call. -/
theorem ask_own_containers (capacity : Nat) (asks : List Ask) (a : Ask)
    (hdigest : ∀ b ∈ asks, b.key engine = a.key engine → b.octets = a.octets)
    (hlanguage : ∀ b ∈ asks, b.grammar.name = a.grammar.name → b.grammar = a.grammar)
    (hkinds : ∀ b ∈ a :: asks, ∀ k ∈ b.options.extra, '\x00' ∉ k.toList) :
    let c := (empty capacity).after engine asks
    (∀ s, (c.ask engine a).1 = .ok s → ∀ maxBytes, a.source.utf8ByteSize ≤ maxBytes →
        Snapshot.parse engine.parser a.grammar ⟨a.options.extra, maxBytes⟩ a.source
          = .ok s.snapshot)
      ∧ ∀ e, (c.ask engine a).1 = .error e →
        Snapshot.parse engine.parser a.grammar a.options a.source = .error e := by
  intro c
  rcases ask_cases engine capacity asks a with hown | ⟨b, hb, s, hans, hkey, hname, hsource, hparse⟩
  · refine ⟨fun s hs maxBytes hle => ?_, fun e he => ?_⟩
    · rw [hs] at hown
      exact Snapshot.parse_eq_of_size_le hown.symm hle
    · rw [he] at hown
      exact hown.symm
  · refine ⟨fun s' hs maxBytes hle => ?_, fun e he => ?_⟩
    · obtain rfl : s = s' := Except.ok.inj (hans.symm.trans hs)
      have hoctets := hdigest b hb hkey
      rw [Ask.octets, Ask.octets, hname, hsource] at hoctets
      have hextra := keyOctets_inj (hkinds b (List.mem_cons_of_mem a hb))
        (hkinds a List.mem_cons_self) hoctets
      rw [hlanguage b hb hname, hsource] at hparse
      rw [← hextra]
      exact Snapshot.parse_eq_of_size_le hparse hle
    · rw [hans] at he
      simp at he

/-- A source that is too large for a call is refused, unless a call with a larger limit has left it
in the cache. -/
theorem ask_oversize (capacity : Nat) (asks : List Ask) (a : Ask)
    (hsize : a.options.maxBytes < a.source.utf8ByteSize) :
    let c := (empty capacity).after engine asks
    let past := (empty capacity).history engine asks
    (∀ s, (c.ask engine a).1 = .ok s
        ↔ lastStored past (a.key engine) = some s ∧ Recent capacity past (a.key engine)
          ∧ s.snapshot.source = a.source ∧ s.snapshot.language = a.grammar.name)
      ∧ (∀ e, (c.ask engine a).1 = .error e →
        e = .tooLarge a.options.maxBytes a.source.utf8ByteSize
          ∧ ∀ origin, e.toError origin
            = .sourceTooLarge a.options.maxBytes origin a.source.utf8ByteSize)
      ∧ ∀ s, (c.ask engine a).1 = .ok s → ∃ b ∈ asks, b.key engine = a.key engine
        ∧ b.grammar.name = a.grammar.name ∧ b.source = a.source
        ∧ a.source.utf8ByteSize ≤ b.options.maxBytes
        ∧ Snapshot.parse engine.parser b.grammar b.options b.source = .ok s.snapshot := by
  intro c past
  have htracks : Tracks capacity past c := Tracks.run capacity engine asks
  have hrefused := Snapshot.parse_of_maxBytes_lt engine.parser a.grammar hsize
  refine ⟨fun s => ?_, fun e he => ?_, fun s hs => ?_⟩
  · rw [← htracks.ask_eq_ok_iff engine a s, iff_self_and]
    intro hs
    -- The call cannot have made the snapshot itself.
    rcases parse_answer engine a.grammar a.options a.source with hfresh | ⟨s', hmem, -, hans⟩
    · have hmap := map_fresh engine c.calls a
      rw [← hfresh, ← ask, hs, hrefused] at hmap
      simp [Except.map] at hmap
    · obtain rfl : s' = s := Except.ok.inj (hans.symm.trans hs)
      exact htracks.madeBy_lt (htracks.stored _ hmem)
  · rcases ask_cases engine capacity asks a with hown | ⟨b, -, s, hans, -⟩
    · rw [he, hrefused] at hown
      obtain rfl := Except.error.inj hown
      exact ⟨rfl, fun _ => rfl⟩
    · rw [hans] at he
      simp at he
  · rcases ask_cases engine capacity asks a with
      hown | ⟨b, hb, s', hans, hkey, hname, hsource, hparse⟩
    · rw [hs, hrefused] at hown
      simp [Except.map] at hown
    · obtain rfl : s' = s := Except.ok.inj (hans.symm.trans hs)
      have hle := Snapshot.size_le_of_parse hparse
      rw [hsource] at hle
      exact ⟨b, hb, hkey, hname, hsource, hle, hparse⟩

end Runs

section Example

/-- The digest that keeps all octets, so that none collide. -/
def plainEngine : Engine (List UInt8) := ⟨Snapshot.twoStatementsParser, id, fun _ => none⟩

/-- A call for `x=é` and `y`, which are six octets. -/
def askTwoStatements (extra : List String) (maxBytes : Nat) : Ask :=
  ⟨Grammar.python, ⟨extra, maxBytes⟩, "x=é\ny"⟩

/-- Asked for with and without assignments as containers, then with them again: the first of the two
snapshots is given out, and in it the assignment is a container. -/
theorem ask_own_containers_assignment :
    let asks := [askTwoStatements ["assignment"] 100, askTwoStatements [] 100]
    ∃ s, (((empty 2).after plainEngine asks).ask plainEngine
          (askTwoStatements ["assignment"] 100)).1 = .ok ⟨0, s⟩
      ∧ Snapshot.parse Snapshot.twoStatementsParser Grammar.python ⟨["assignment"], 1000⟩ "x=é\ny"
        = .ok s
      ∧ (s.get 2).container = true := by
  intro asks
  have hans : (((empty 2).after plainEngine asks).ask plainEngine
      (askTwoStatements ["assignment"] 100)).1 = .ok ⟨0, ⟨"python", "x=é\ny",
        Snapshot.nodesOf "x=é\ny" Grammar.python ["assignment"] Concrete.twoStatements⟩⟩ := by
    decide +kernel
  have hown := ask_own_containers plainEngine 2 asks (askTwoStatements ["assignment"] 100)
    (fun _ _ h => h) (by simp [asks, askTwoStatements]) (by decide)
  exact ⟨_, hans, hown.1 _ hans 1000 (by decide), by decide +kernel⟩

/-- The snapshot that a generous call has left is given out to a strict one. -/
theorem ask_remembered :
    (((empty 1).after plainEngine [askTwoStatements [] 100]).ask plainEngine
      (askTwoStatements [] 5)).1 = .ok ⟨0, Snapshot.twoStatementsSnapshot⟩ := by
  decide +kernel

theorem ask_oversize_twoStatements :
    (askTwoStatements [] 5).options.maxBytes < (askTwoStatements [] 5).source.utf8ByteSize
      ∧ (∃ b ∈ [askTwoStatements [] 100], b.source = "x=é\ny" ∧ 6 ≤ b.options.maxBytes)
      ∧ ∃ e, ((empty 1).ask plainEngine (askTwoStatements [] 5)).1 = .error e
        ∧ e.toError "<a>" = .sourceTooLarge 5 "<a>" 6 := by
  have hsize : (askTwoStatements [] 5).options.maxBytes
      < (askTwoStatements [] 5).source.utf8ByteSize := by decide
  refine ⟨hsize, ?_, ?_⟩
  · obtain ⟨-, -, hfound⟩ := ask_oversize plainEngine 1 [askTwoStatements [] 100] _ hsize
    obtain ⟨b, hb, -, -, hsource, hle, -⟩ := hfound _ ask_remembered
    exact ⟨b, hb, hsource, hle⟩
  · obtain ⟨-, hrefused, -⟩ := ask_oversize plainEngine 1 [] (askTwoStatements [] 5) hsize
    have hans : ((empty 1).ask plainEngine (askTwoStatements [] 5)).1 = .error (.tooLarge 5 6) := by
      decide +kernel
    exact ⟨_, hans, (hrefused _ hans).2 "<a>"⟩

/-- Not every source that is larger than the limit of its call is refused. -/
theorem not_forall_oversize_refused :
    ¬ ∀ (capacity : Nat) (asks : List Ask) (a : Ask),
      a.options.maxBytes < a.source.utf8ByteSize →
        (((empty capacity).after plainEngine asks).ask plainEngine a).1
          = .error (.tooLarge a.options.maxBytes a.source.utf8ByteSize) := by
  intro h
  have hrefused := h 1 [askTwoStatements [] 100] (askTwoStatements [] 5) (by decide)
  rw [ask_remembered] at hrefused
  simp at hrefused

end Example

end Cache

end SyntaxQuery
