import Mathlib
import SyntaxQuery.Proofs.Provider
import SyntaxQuery.Proofs.Source.Layout
import SyntaxQuery.Proofs.Tree.Total

/-!
# No request meets a malformed tree

A tree can be malformed only as far as `Tree` allows it to be; a snapshot cannot. Its nodes are
numbered from the root on, so no walk through it runs into a guard (`Tree.Numbered`), and the only
failures that are left to a request are the ones it brings with it: its name, its params, its
language and its source. `Untroubled` says this of an answer, and every answer of a session is
(`calls_kind_ne_malformed`).

Nothing is asked of the parser here. Its tree is finite, and the offsets, rows and columns in it may
be anything.
-/

namespace SyntaxQuery

/-- If the answer is a failure, the tree is not to blame. -/
def Untroubled {α : Type} (answer : Except Error α) : Prop :=
  ∀ e, answer = .error e → e.kind ≠ "malformed_tree"

namespace Untroubled

variable {α β : Type}

theorem ok (a : α) : Untroubled (.ok a : Except Error α) := by
  intro e he
  simp at he

theorem error {e : Error} (h : e.kind ≠ "malformed_tree") :
    Untroubled (.error e : Except Error α) := by
  rintro e' ⟨⟩
  exact h

theorem bind {x : Except Error α} {f : α → Except Error β} (hx : Untroubled x)
    (hf : ∀ a, x = .ok a → Untroubled (f a)) : Untroubled (x.bind f) := by
  cases x with
  | error e => exact error (hx e rfl)
  | ok a => exact hf a rfl

theorem forName (name : String) : Untroubled (Grammar.forName name) := by
  unfold Grammar.forName
  split
  · exact ok _
  · exact error (by simp [Error.kind])

theorem named (name : String) : Untroubled (Method.named name) := by
  unfold Method.named
  split
  · exact ok _
  · exact error (by simp [Error.kind])

theorem read (name : String) (params : Json) : Untroubled (Call.read name params) := by
  refine (named name).bind fun m _ => ?_
  split
  · exact ok _
  · exact error (by simp [Error.kind])

theorem functionArguments (s : Snapshot) : Untroubled s.functionArguments := by
  unfold Snapshot.functionArguments
  split
  · exact ok _
  · exact ok _
  · exact error (by simp [ShapeError.toError, Error.kind])

theorem setLevel {κ : Type} (engine : Engine κ) (p : Provider κ) (level : String) :
    Untroubled (p.setLevel engine level).1 := by
  unfold Provider.setLevel LogFilter.ofLevel
  cases p.logging with
  | none => exact error (by simp [Error.kind])
  | some f =>
    cases engine.filterFault? (LogFilter.directive level) with
    | none => exact ok _
    | some reason => exact error (by simp [Error.kind])

theorem toError (origin : String) (e : ParseError) :
    Untroubled (.error (e.toError origin) : Except Error α) := by
  cases e <;> exact error (by simp [ParseError.toError, Error.kind])

theorem parseAfresh (parser : Parser) (config : Config) (origin source language : String) :
    Untroubled (Provider.parseAfresh parser config origin source language) := by
  unfold Provider.parseAfresh
  split
  · rename_i e he
    exact error (forName language e he)
  · split
    · exact ok _
    · exact toError origin _

section Snapshot

variable {s : Snapshot} (h : s.tree.Numbered)
include h

theorem nodeReportAt (pos : Position) : Untroubled (s.nodeReportAt pos) := by
  obtain ⟨n, hn, -⟩ := h.exists_nodeAt pos
  simp only [Snapshot.nodeReportAt, hn]
  exact ok _

theorem regionReportAt (start stop : Position) : Untroubled (s.regionReportAt start stop) := by
  obtain ⟨r, hr⟩ := h.exists_regionAt start stop
  simp only [Snapshot.regionReportAt, hr]
  exact ok _

theorem scopesAt (pos : Position) : Untroubled (s.scopesAt pos) := by
  obtain ⟨n, hn, hlt, -⟩ := h.exists_nodeAt pos
  obtain ⟨scopes, hscopes⟩ := h.exists_scopes hlt
  simp only [Snapshot.scopesAt, hn, Bind.bind, Except.bind, hscopes]
  exact ok _

end Snapshot

end Untroubled

namespace Provider

theorem parse_of_parseAfresh {parser : Parser} {config : Config} {origin source language : String}
    {s : Snapshot} (h : parseAfresh parser config origin source language = .ok s) :
    ∃ g, Snapshot.parse parser g (config.parseOptions g.name) source = .ok s := by
  unfold parseAfresh at h
  split at h
  · simp at h
  · rename_i g hg
    split at h
    · rename_i s' hs'
      rw [Except.ok.injEq] at h
      exact ⟨g, h ▸ hs'⟩
    · simp at h

section Session

variable {κ : Type} [DecidableEq κ] {engine : Engine κ} {config : Config} {logged : Bool}
  {p : Provider κ}

theorem Steady.untroubled_withSource (h : p.Steady engine.parser config logged)
    (params : SourceParams) {f : Snapshot → Except Error Json}
    (hf : ∀ s : Snapshot, s.tree.Numbered → Untroubled (f s)) :
    Untroubled (p.withSource engine params f).1 := by
  show Untroubled ((p.parse engine _ _ _).1.bind f)
  rw [h.parse_eq]
  refine (Untroubled.parseAfresh _ _ _ _ _).bind fun s hs => hf s ?_
  obtain ⟨g, hg⟩ := parse_of_parseAfresh hs
  exact Snapshot.numbered_of_parse hg

theorem Steady.untroubled_perform (h : p.Steady engine.parser config logged) (call : Call) :
    Untroubled (p.perform engine call).1 := by
  have hsource := h.untroubled_withSource
  cases call with
  | analyze depth source => exact hsource source fun s _ => .ok _
  | echo value => exact .ok _
  | getArgs source =>
    exact hsource source fun s _ => (Untroubled.functionArguments s).bind fun _ _ => .ok _
  | getCurrent place source =>
    exact hsource source fun s hs => (Untroubled.nodeReportAt hs place).bind fun _ _ => .ok _
  | getParents place source =>
    exact hsource source fun s hs => (Untroubled.scopesAt hs place).bind fun _ _ => .ok _
  | getRegion start stop source =>
    exact hsource source fun s hs =>
      (Untroubled.regionReportAt hs start stop).bind fun _ _ => .ok _
  | help name => exact (Untroubled.named name).bind fun _ _ => .ok _
  | listMethods language source =>
    cases source with
    | none => exact .ok _
    | some source => exact hsource ⟨language, source⟩ fun s _ => .ok _
  | setLoggingLevel level => exact .setLevel engine p level
  | version => exact .ok _

theorem Steady.untroubled_call (h : p.Steady engine.parser config logged) (name : String)
    (params : Json) : Untroubled (p.call engine name params).1 := by
  unfold Provider.call
  split
  · exact h.untroubled_perform _
  · rename_i e he
    exact .error (Untroubled.read name params e he)

end Session

theorem calls_kind_ne_malformed {κ : Type} [DecidableEq κ] (engine : Engine κ) (config : Config)
    (logging : Option LogFilter) (requests : List (String × Json)) :
    (∀ answer ∈ ((start config logging : Provider κ).calls engine requests).1,
      ∀ e, answer = .error e → e.kind ≠ "malformed_tree")
    ∧ ∀ (grammar : Grammar) (options : ParseOptions) (source : String) (s : Snapshot),
        Snapshot.parse engine.parser grammar options source = .ok s →
        (∀ pos, ∃ n < s.nodes.size, s.tree.nodeAt pos = .ok n)
        ∧ (∀ n < s.nodes.size, ∃ chain, s.tree.ancestors n = .ok chain
            ∧ chain.head? = some n ∧ chain.getLast? = some 0 ∧ chain.length ≤ s.nodes.size)
        ∧ (∀ n < s.nodes.size, ∃ scopes, s.tree.scopes n = .ok scopes)
        ∧ (∀ n items, s.tree.items n = some items →
            (∀ child i, s.tree.indexOf n child = some i → items[i]? = some child)
            ∧ ∀ child ∈ items, ∃ i, s.tree.indexOf n child = some i)
        ∧ ∀ start stop, ∃ r, s.tree.regionAt start stop = .ok r := by
  refine ⟨fun answer hanswer => ?_, fun grammar options source s hparse => ?_⟩
  · have hsteady : (Provider.start config logging : Provider κ).Steady engine.parser config
        logging.isSome := Steady.start config.cacheSize logging
    rw [Steady.calls_eq_map engine engine rfl rfl hsteady requests hsteady, List.mem_map] at hanswer
    obtain ⟨request, -, rfl⟩ := hanswer
    exact hsteady.untroubled_call request.1 request.2
  · have h := Snapshot.numbered_of_parse hparse
    refine ⟨fun pos => ?_, fun n hn => ?_, fun n hn => h.exists_scopes hn, fun n items his => ?_,
      h.exists_regionAt⟩
    · obtain ⟨n, hn, hlt, -⟩ := h.exists_nodeAt pos
      exact ⟨n, hlt, hn⟩
    · obtain ⟨chain, hchain, hlen⟩ := h.exists_lineage n hn
      have hlt : n < s.tree.nodeCount := hn
      exact ⟨chain, Tree.ancestors_eq_ok_iff.2 ⟨hchain, by omega⟩, hchain.head?_eq,
        hchain.getLast?_eq, by omega⟩
    · exact ⟨fun child i hi => h.getElem?_of_indexOf his hi,
        fun child hchild => h.exists_indexOf his hchild⟩

section Example

/-- A path of three nodes whose places make no sense: each starts after it ends or reaches out of
its parent. -/
def crooked : Concrete :=
  .node (Concrete.soundInfo "module" true none 5 2 (9, 9) (0, 0))
    [.node (Concrete.soundInfo "block" true none 1 0 (0, 0) (7, 7))
      [.node (Concrete.soundInfo "identifier" true none 0 9 (0, 0) (9, 9)) []]]

def crookedEngine : Engine Unit := ⟨fun _ _ => some crooked, fun _ => (), fun _ => none⟩

def crookedSnapshot : Snapshot :=
  ⟨"python", "é", Snapshot.nodesOf "é" Grammar.python [] crooked⟩

/-- The place of the innermost node of `crooked`, and a language that there is not. -/
def crookedRequests : List (String × Json) :=
  [("get_current", .object [("column", .ofNat 1), ("row", .ofNat 2), ("source", .text "é")]),
   ("analyze", .object [("language", .text "cobol"), ("source", .text "é")])]

/-- The descent looks at all three nodes and the climb back passes all of them. -/
theorem calls_kind_ne_malformed_crooked :
    ((start Config.standard none : Provider Unit).calls crookedEngine crookedRequests).1
      = [.ok (NodeReport.toJson ⟨"identifier", ⟨⟨1, 1⟩, ⟨10, 9⟩⟩, ""⟩),
         .error (.unsupportedLanguage "cobol")]
    ∧ (Error.unsupportedLanguage "cobol").kind ≠ "malformed_tree"
    ∧ (∃ n < 3, crookedSnapshot.tree.nodeAt ⟨2, 1⟩ = .ok n)
    ∧ ∃ chain, crookedSnapshot.tree.ancestors 2 = .ok chain ∧ chain.head? = some 2
        ∧ chain.getLast? = some 0 ∧ chain.length ≤ 3 := by
  have hanswers : ((start Config.standard none : Provider Unit).calls crookedEngine
      crookedRequests).1 = [.ok (NodeReport.toJson ⟨"identifier", ⟨⟨1, 1⟩, ⟨10, 9⟩⟩, ""⟩),
        .error (.unsupportedLanguage "cobol")] := by cbv
  have hsize : crookedSnapshot.nodes.size = 3 := by decide +kernel
  obtain ⟨hkind, hwalks⟩ := calls_kind_ne_malformed crookedEngine Config.standard none
    crookedRequests
  obtain ⟨hnode, hchain, -⟩ := hwalks Grammar.python ⟨[], 100⟩ "é" crookedSnapshot rfl
  rw [hsize] at hnode hchain
  rw [hanswers] at hkind
  exact ⟨hanswers, hkind (.error (.unsupportedLanguage "cobol")) (by simp) _ rfl, hnode ⟨2, 1⟩,
    hchain 2 (by omega)⟩

end Example

end Provider

end SyntaxQuery
