import Mathlib.Logic.Function.Basic
import SyntaxQuery.Proofs.Cache
import SyntaxQuery.Proofs.Source.Links

/-!
# Clients that share a cache

The cache is locked while a key is looked up and while a snapshot is stored, but not while a source
is parsed. So a call takes two steps (`parse_eq_steps`), and between them other clients may store,
replace and push out what they like, under the same key too. A schedule says whose step comes next.

Each step keeps the cache tidy and keeps fresh parses in it only (`Sound.look`, `Sound.store`), so
what a client finds and confirms is the parse of its own source, and so is what it parses itself
(`Client.act_spec`). Hence every client gets the answers it would get alone, in every schedule
(`SharedCache.run_answers`).
-/

namespace SyntaxQuery

/-- A source in a supported language, and where it comes from. -/
structure Buffer where
  grammar : Grammar
  supported : Grammar.forName grammar.name = .ok grammar
  origin : String
  source : String

/-- What parsing the buffer gives. How a source is parsed depends on its language only. -/
def Buffer.parsed (parser : Parser) (options : String → ParseOptions) (b : Buffer) :
    Except Error Snapshot :=
  match Snapshot.parse parser b.grammar (options b.grammar.name) b.source with
  | .ok s => .ok s
  | .error e => .error (e.toError b.origin)

/-- What the client that sent the buffer is told. -/
def Buffer.report (b : Buffer) : Except ParseError Stored → Except Error Snapshot
  | .ok s => .ok s.snapshot
  | .error e => .error (e.toError b.origin)

/-- A snapshot is what parsing its own source in its own language gives, and the key is theirs. -/
structure Snapshot.Fresh {κ : Type} (engine : Engine κ) (options : String → ParseOptions) (key : κ)
    (s : Snapshot) : Prop where
  parse_eq : ∃ g, Grammar.forName s.language = .ok g
    ∧ Snapshot.parse engine.parser g (options g.name) s.source = .ok s
  key_eq : key = engine.digest (Cache.keyOctets s.language (options s.language).extra s.source)

section Fresh

variable {κ : Type} {engine : Engine κ} {options : String → ParseOptions} {s : Snapshot} {b : Buffer}

theorem Snapshot.fresh_of_parse
    (h : Snapshot.parse engine.parser b.grammar (options b.grammar.name) b.source = .ok s) :
    s.Fresh engine options
      (engine.digest (Cache.keyOctets b.grammar.name (options b.grammar.name).extra b.source)) := by
  have hlanguage := Snapshot.language_of_parse h
  have hsource := Snapshot.source_of_parse h
  refine ⟨⟨b.grammar, ?_, ?_⟩, ?_⟩
  · rw [hlanguage]
    exact b.supported
  · rw [hsource]
    exact h
  · rw [hlanguage, hsource]

/-- A fresh snapshot that is confirmed for a buffer is what parsing the buffer gives. -/
theorem Snapshot.Fresh.parsed_eq {key : κ} (h : s.Fresh engine options key)
    (hconf : Cache.confirms b.grammar.name b.source s) : b.parsed engine.parser options = .ok s := by
  simp only [Cache.confirms, Bool.and_eq_true, decide_eq_true_eq] at hconf
  obtain ⟨g, hg, hparse⟩ := h.parse_eq
  rw [hconf.2, b.supported, Except.ok.injEq] at hg
  subst hg
  rw [hconf.1] at hparse
  rw [Buffer.parsed, hparse]

end Fresh

namespace Cache

variable {κ : Type} [DecidableEq κ]

/-- The cache is in order, and holds fresh parses only. -/
structure Sound (engine : Engine κ) (options : String → ParseOptions) (c : Cache κ) : Prop where
  tidy : c.Tidy
  fresh : c.Holds fun key s => s.Fresh engine options key

namespace Sound

variable {engine : Engine κ} {options : String → ParseOptions} {c : Cache κ}

theorem look (h : c.Sound engine options) (b : Buffer) :
    (c.look engine b.grammar (options b.grammar.name) b.source).2.Sound engine options
      ∧ (c.look engine b.grammar (options b.grammar.name) b.source).2.capacity = c.capacity
      ∧ ∀ s, (c.look engine b.grammar (options b.grammar.name) b.source).1 = some s →
        b.parsed engine.parser options = .ok s.snapshot := by
  have hcounted : c.counted.Holds fun key s => s.Fresh engine options key := h.fresh
  refine ⟨⟨h.tidy.counted.promote _, hcounted.promote⟩, capacity_promote _ _, fun s hs => ?_⟩
  obtain ⟨hfind, hconf⟩ := Option.filter_eq_some_iff.1 hs
  exact (hcounted _ (mem_of_find? hfind)).parsed_eq hconf

theorem store (h : c.Sound engine options) (b : Buffer) (call : Nat) :
    (c.store engine b.grammar (options b.grammar.name) b.source call).2.Sound engine options
      ∧ (c.store engine b.grammar (options b.grammar.name) b.source call).2.capacity = c.capacity
      ∧ b.report (c.store engine b.grammar (options b.grammar.name) b.source call).1
        = b.parsed engine.parser options := by
  unfold Cache.store Cache.fresh Buffer.parsed
  rcases hparse : Snapshot.parse engine.parser b.grammar (options b.grammar.name) b.source with
    e | s
  · exact ⟨h, rfl, rfl⟩
  · exact ⟨⟨h.tidy.insert _ _, h.fresh.insert (Snapshot.fresh_of_parse hparse)⟩, rfl, rfl⟩

end Sound

end Cache

/-- A client, which makes its calls one after another. -/
structure Client where
  /-- What it has yet to get answers for. -/
  todo : List Buffer
  /-- The number of the call under way, if it was looked up in vain. -/
  parsing : Option Nat
  answers : List (Except Error Snapshot)

namespace Client

variable {κ : Type} [DecidableEq κ] (engine : Engine κ) (options : String → ParseOptions)

/-- One step of a client at the cache: the first or the second of its next call. -/
def act (client : Client) (c : Cache κ) : Client × Cache κ :=
  match client.todo with
  | [] => (client, c)
  | b :: rest =>
    match client.parsing with
    | none =>
      match c.look engine b.grammar (options b.grammar.name) b.source with
      | (some s, c') => (⟨rest, none, client.answers ++ [b.report (.ok s)]⟩, c')
      | (none, c') => ({ client with parsing := some c.calls }, c')
    | some call =>
      let (result, c') := c.store engine b.grammar (options b.grammar.name) b.source call
      (⟨rest, none, client.answers ++ [b.report result]⟩, c')

/-- A bound on the steps that a client has yet to take. -/
def stepsLeft (client : Client) : Nat :=
  2 * client.todo.length - client.parsing.toList.length

/-- All answers of a client when what is left to do is answered by `answer`. -/
def promised (answer : Buffer → Except Error Snapshot) (client : Client) :
    List (Except Error Snapshot) :=
  client.answers ++ client.todo.map answer

theorem todo_eq_nil {client : Client} (h : client.stepsLeft = 0) : client.todo = [] := by
  have hle : client.parsing.toList.length ≤ 1 := by
    rcases client.parsing with _ | call <;> simp
  unfold stepsLeft at h
  exact List.length_eq_zero_iff.1 (by omega)

variable {engine options} {c : Cache κ}

theorem act_spec (h : c.Sound engine options) (client : Client) :
    (client.act engine options c).2.Sound engine options
      ∧ (client.act engine options c).2.capacity = c.capacity
      ∧ (client.act engine options c).1.promised (Buffer.parsed engine.parser options)
        = client.promised (Buffer.parsed engine.parser options)
      ∧ (client.act engine options c).1.stepsLeft ≤ client.stepsLeft - 1 := by
  obtain ⟨todo, parsing, answers⟩ := client
  rcases todo with _ | ⟨b, rest⟩
  · exact ⟨h, rfl, rfl, by simp [act, stepsLeft]⟩
  · rcases parsing with _ | call
    · obtain ⟨hsound, hcap, hans⟩ := h.look b
      rcases hlook : c.look engine b.grammar (options b.grammar.name) b.source with ⟨_ | s, c'⟩
      · rw [hlook] at hsound hcap
        simp only [act, hlook]
        exact ⟨hsound, hcap, rfl, by simp [stepsLeft]⟩
      · rw [hlook] at hsound hcap hans
        simp only [act, hlook]
        refine ⟨hsound, hcap, ?_, by simp [stepsLeft]; omega⟩
        simp [promised, hans s rfl, Buffer.report]
    · obtain ⟨hsound, hcap, hans⟩ := h.store b call
      simp only [act]
      refine ⟨hsound, hcap, ?_, by simp [stepsLeft]; omega⟩
      simp [promised, hans]

end Client

/-- A cache and the clients that share it. -/
structure SharedCache (ι κ : Type) where
  cache : Cache κ
  clients : ι → Client

namespace SharedCache

variable {ι κ : Type} [DecidableEq ι] [DecidableEq κ]

/-- The empty cache, and clients that have yet to make all their calls. -/
def start (capacity : Nat) (calls : ι → List Buffer) : SharedCache ι κ :=
  ⟨.empty capacity, fun i => ⟨calls i, none, []⟩⟩

section Run

variable (engine : Engine κ) (options : String → ParseOptions)

/-- The step of client `i`. -/
def step (s : SharedCache ι κ) (i : ι) : SharedCache ι κ :=
  let (client, cache) := (s.clients i).act engine options s.cache
  ⟨cache, Function.update s.clients i client⟩

/-- The steps of a schedule. -/
def run (s : SharedCache ι κ) (schedule : List ι) : SharedCache ι κ :=
  schedule.foldl (step engine options) s

end Run

/-- Every client is promised what it would be told alone. -/
structure Sound (engine : Engine κ) (options : String → ParseOptions) (capacity : Nat)
    (calls : ι → List Buffer) (s : SharedCache ι κ) : Prop where
  cache : s.cache.Sound engine options
  capacity_eq : s.cache.capacity = capacity
  promised : ∀ i, (s.clients i).promised (Buffer.parsed engine.parser options)
    = (calls i).map (Buffer.parsed engine.parser options)

variable {engine : Engine κ} {options : String → ParseOptions} {capacity : Nat}
  {calls : ι → List Buffer} {s : SharedCache ι κ}

omit [DecidableEq ι] [DecidableEq κ] in
theorem sound_start (engine : Engine κ) (options : String → ParseOptions) (capacity : Nat)
    (calls : ι → List Buffer) : (start capacity calls : SharedCache ι κ).Sound engine options
      capacity calls :=
  ⟨⟨⟨List.nodup_nil, Nat.zero_le _⟩, Cache.holds_empty capacity⟩, rfl, fun _ => rfl⟩

theorem clients_step (s : SharedCache ι κ) (i j : ι) :
    (s.step engine options i).clients j = if j = i then ((s.clients i).act engine options s.cache).1
      else s.clients j := by
  simp [step, Function.update_apply]

theorem Sound.step (h : s.Sound engine options capacity calls) (i : ι) :
    (s.step engine options i).Sound engine options capacity calls := by
  obtain ⟨hsound, hcap, hpromised, -⟩ := Client.act_spec h.cache (s.clients i)
  refine ⟨hsound, hcap.trans h.capacity_eq, fun j => ?_⟩
  rw [clients_step]
  split_ifs with hj
  · subst hj
    exact hpromised.trans (h.promised j)
  · exact h.promised j

theorem Sound.run (h : s.Sound engine options capacity calls) (schedule : List ι) :
    (s.run engine options schedule).Sound engine options capacity calls := by
  induction schedule generalizing s with
  | nil => exact h
  | cons i rest ih => exact ih (h.step i)

/-- With each of its turns a client comes closer to its last answer. -/
theorem Sound.stepsLeft_run (h : s.Sound engine options capacity calls) (schedule : List ι)
    (i : ι) : ((s.run engine options schedule).clients i).stepsLeft
      ≤ (s.clients i).stepsLeft - schedule.count i := by
  induction schedule generalizing s with
  | nil => simp [SharedCache.run]
  | cons j rest ih =>
    have hrest := ih (h.step j)
    obtain ⟨-, -, -, hact⟩ := Client.act_spec h.cache (s.clients j)
    rw [clients_step] at hrest
    show ((SharedCache.run engine options (s.step engine options j) rest).clients i).stepsLeft ≤ _
    by_cases hij : i = j
    · subst hij
      rw [if_pos rfl] at hrest
      rw [List.count_cons_self]
      omega
    · rw [if_neg hij] at hrest
      rw [List.count_cons_of_ne (Ne.symm hij)]
      exact hrest

theorem run_answers (engine : Engine κ) (options : String → ParseOptions) (capacity : Nat)
    (calls : ι → List Buffer) (schedule : List ι) :
    let s : SharedCache ι κ := (start capacity calls).run engine options schedule
    (∀ i, (s.clients i).answers <+: (calls i).map (Buffer.parsed engine.parser options))
      ∧ (∀ i, 2 * (calls i).length ≤ schedule.count i →
        (s.clients i).answers = (calls i).map (Buffer.parsed engine.parser options))
      ∧ s.cache.entries.length ≤ capacity ∧ s.cache.keys.Nodup
      ∧ s.cache.Holds fun key snapshot => snapshot.Fresh engine options key := by
  intro s
  have hstart := sound_start engine options capacity calls
  have h : s.Sound engine options capacity calls := hstart.run schedule
  refine ⟨fun i => ?_, fun i hcount => ?_, ?_, h.cache.tidy.nodup_keys, h.cache.fresh⟩
  · rw [← h.promised i]
    exact List.prefix_append _ _
  · have hleft : (s.clients i).stepsLeft ≤ _ := hstart.stepsLeft_run schedule i
    have hfirst : ((start capacity calls : SharedCache ι κ).clients i).stepsLeft
        = 2 * (calls i).length := rfl
    have hdone : (s.clients i).todo = [] := Client.todo_eq_nil (by omega)
    rw [← h.promised i, Client.promised, hdone, List.map_nil, List.append_nil]
  · rw [← h.capacity_eq]
    exact h.cache.tidy.length_le

end SharedCache

end SyntaxQuery
