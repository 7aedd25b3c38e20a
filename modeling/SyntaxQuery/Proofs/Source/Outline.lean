import SyntaxQuery.Proofs.Source.Arguments
import SyntaxQuery.Source.Outline

/-!
# One line for each node

The outline goes through the snapshot from parent to child and stops at a depth. The numbers of the
nodes that it meets are listed by `shownFrom`. They come in increasing order, since the nodes below
a node are numbered right after it (`Shows.shownFrom_sublist`), and they are all the nodes that are
deep enough and no deeper (`mem_shownFrom_iff`). Each of them gets a line of its own
(`tells_outlineFrom`), and no line breaks in two, whatever the text of a leaf
(`newline_not_mem_quoted`). So the lines of the outline can be told apart, and they are the lines of
the nodes down to the depth (`outline_parsed`).
-/

namespace SyntaxQuery

namespace Tree

variable {ν : Type} {t : Tree ν}

theorem Depth.child (hroot : t.parent t.root = none) {c p : ν} {d : Nat} (h : t.Depth p d)
    (hp : t.parent c = some p) : t.Depth c (d + 1) := by
  obtain ⟨l, hl, hlen⟩ := h
  have hne : c ≠ t.root := by
    rintro rfl
    simp [hroot] at hp
  exact ⟨c :: l, .child hne hp hl, by simp [hlen]⟩

/-- Below a node are only deeper ones. -/
theorem Depth.below (hroot : t.parent t.root = none) {upper lower : ν} {d : Nat}
    (h : t.Depth upper d) (ha : t.Above upper lower) :
    lower = upper ∨ ∃ j, t.Depth lower (d + (j + 1)) := by
  induction ha using Relation.ReflTransGen.head_induction_on with
  | refl => exact Or.inl rfl
  | head hp _ ih =>
    rcases ih with rfl | ⟨j, hj⟩
    · exact Or.inr ⟨0, h.child hroot hp⟩
    · exact Or.inr ⟨j + 1, hj.child hroot hp⟩

end Tree

namespace Text

theorem newline_not_mem_toDigits {base : Nat} (hbase : 1 < base) (n : Nat) :
    '\n' ∉ Nat.toDigits base n := by
  induction n using Nat.strongRecOn with
  | ind n ih =>
    rw [Nat.toDigits_eq_if hbase]
    split_ifs with h
    · simp
    · have hlt : n / base < n := Nat.div_lt_self (by omega) hbase
      simpa using ih _ hlt

theorem newline_not_mem_quotedChar (c : Char) : '\n' ∉ (quotedChar c).toList := by
  have hhex : '\n' ∉ (hex c.toNat).toList := by
    rw [hex, String.toList_ofList]
    exact newline_not_mem_toDigits (by decide) _
  by_cases hc : c = '\n'
  · subst hc
    decide
  · unfold quotedChar
    split_ifs
    all_goals simp [Ne.symm hc, hhex]

theorem newline_not_mem_span (s : Span) : '\n' ∉ s.toText.toList := by
  have hnumber : ∀ n : Nat, '\n' ∉ Nat.toDigits 10 n := newline_not_mem_toDigits (by decide)
  simp [Span.toText, Position.toText, hnumber]

theorem newline_not_mem_quoted (s : String) : '\n' ∉ (quoted s).toList := by
  simp [quoted, newline_not_mem_quotedChar]

end Text

namespace Snapshot

section Lines

/-- The lines of a text; the empty text has none. -/
def textLines (t : String) : List String :=
  if t = "" then [] else (t.toList.splitOn '\n').map String.ofList

theorem textLines_intercalate {lines : List String} (hne : "" ∉ lines)
    (hlines : ∀ line ∈ lines, '\n' ∉ line.toList) : textLines ("\n".intercalate lines) = lines := by
  cases lines with
  | nil => rfl
  | cons line rest =>
    have hsplit : ("\n".intercalate (line :: rest)).toList.splitOn '\n'
        = (line :: rest).map String.toList := by
      rw [String.toList_intercalate]
      exact List.splitOn_intercalate '\n' (by simpa using hlines) (by simp)
    have htext : "\n".intercalate (line :: rest) ≠ "" := by
      intro hempty
      rw [hempty] at hsplit
      have hline := congrArg List.head? hsplit
      simp only [String.toList_empty, List.splitOn_nil, List.head?_cons, List.map_cons,
        Option.some.injEq] at hline
      exact hne (by simp [String.toList_eq_nil_iff.1 hline.symm])
    rw [textLines, if_neg htext, hsplit, List.map_map]
    simp

end Lines

/-- The numbers of `n` and of the nodes at most `depth` levels below it. -/
def shownFrom (s : Snapshot) : (depth n : Nat) → List Nat
  | 0, n => [n]
  | depth + 1, n => n :: (s.get n).children.flatMap (shownFrom s depth)

/-- `line` is the line of node `n` in the outline down to `depth`. -/
def Tells (s : Snapshot) (depth n : Nat) (line : String) : Prop :=
  ∃ k ending, s.tree.Depth n (k + 1) ∧ k ≤ depth
    ∧ line = String.ofList (List.replicate (2 * k) ' ')
        ++ (match (s.get n).field with
            | some f => f ++ " -> "
            | none => "")
        ++ (s.get n).kind ++ " [" ++ (s.get n).span.toText ++ "]" ++ ending
    ∧ (ending = " " ++ Text.quoted (s.text n) ↔ (s.get n).children = [])
    ∧ (ending = " ..." ↔ (s.get n).children ≠ [] ∧ k = depth)
    ∧ (ending = "" ↔ (s.get n).children ≠ [] ∧ k < depth)

section Shown

variable {s : Snapshot} {tree : Concrete}

theorem flatMap_numbersFrom_sublist {f : Nat → List Nat} : ∀ {id : Nat} {cs : List Concrete},
    List.Forall₂ (fun m c => (f m).Sublist (List.range' m c.namedPreorder.length))
        (Concrete.numbersFrom id cs) cs →
      ((Concrete.numbersFrom id cs).flatMap f).Sublist
        (List.range' id (cs.flatMap Concrete.namedPreorder).length)
  | _, [], _ => by simp [Concrete.numbersFrom]
  | id, c :: cs, h => by
    rw [Concrete.numbersFrom, List.forall₂_cons] at h
    rw [Concrete.numbersFrom, List.flatMap_cons, List.flatMap_cons, List.length_append,
      ← List.range'_append, Nat.one_mul]
    exact h.1.append (flatMap_numbersFrom_sublist h.2)

theorem Shows.shownFrom_sublist (h : s.Shows tree) : ∀ (depth n : Nat) {c : Concrete},
    tree.namedPreorder[n]? = some c →
      (s.shownFrom depth n).Sublist (List.range' n c.namedPreorder.length)
  | 0, n, c, hc => by
    rw [shownFrom, Concrete.namedPreorder_eq, List.length_cons, List.range'_succ]
    exact (List.nil_sublist _).cons_cons n
  | depth + 1, n, c, hc => by
    have hchildren : (s.get n).children = Concrete.numbersFrom (n + 1) c.namedChildren := by
      obtain ⟨grammar, extra, he⟩ := h
      exact he.children_eq hc
    have hbelow : List.Forall₂ (fun m d => (s.shownFrom depth m).Sublist
        (List.range' m d.namedPreorder.length)) (s.get n).children c.namedChildren :=
      (h.children hc).imp fun m d hmd => h.shownFrom_sublist depth m hmd.listed
    rw [hchildren] at hbelow
    rw [shownFrom, hchildren, Concrete.namedPreorder_eq, List.length_cons, List.range'_succ]
    exact (flatMap_numbersFrom_sublist hbelow).cons_cons n

theorem mem_shownFrom_iff (h : s.tree.Numbered) {m : Nat} : ∀ {depth n d : Nat},
    s.tree.Depth n d →
      (m ∈ s.shownFrom depth n ↔ s.tree.Above n m ∧ ∃ j ≤ depth, s.tree.Depth m (d + j))
  | 0, n, d, hn => by
    rw [shownFrom, List.mem_singleton]
    constructor
    · rintro rfl
      exact ⟨.refl m, 0, le_rfl, hn⟩
    · rintro ⟨ha, j, hj, hm⟩
      rcases hn.below h.parent_root' ha with hmn | ⟨i, hi⟩
      · exact hmn
      · have := hm.unique hi
        omega
  | depth + 1, n, d, hn => by
    rw [shownFrom, List.mem_cons, List.mem_flatMap]
    constructor
    · rintro (rfl | ⟨c, hc, hm⟩)
      · exact ⟨.refl m, 0, by omega, hn⟩
      · have hp : s.tree.parent c = some n := h.mem_children.1 hc
        obtain ⟨ha, j, hj, hd⟩ := (mem_shownFrom_iff h (hn.child h.parent_root' hp)).1 hm
        refine ⟨(Tree.Above.of_parent hp).trans ha, j + 1, by omega, ?_⟩
        rwa [Nat.add_right_comm] at hd
    · rintro ⟨ha, j, hj, hm⟩
      rcases Relation.ReflTransGen.cases_tail ha with hmn | ⟨c, hc, hp⟩
      · exact Or.inl hmn.symm
      · -- The step from `m` up to `n` that comes last is the one from a child of `n`.
        have hdepth := hn.child h.parent_root' hp
        refine Or.inr ⟨c, h.mem_children.2 hp, (mem_shownFrom_iff h hdepth).2 ⟨hc, ?_⟩⟩
        rcases hdepth.below h.parent_root' hc with rfl | ⟨i, hi⟩
        · exact ⟨0, by omega, hdepth⟩
        · have := hm.unique hi
          exact ⟨i + 1, by omega, hi⟩

theorem depth_root (s : Snapshot) : s.tree.Depth 0 0 := ⟨[0], .root, rfl⟩

/-- The root and what is shown below it are some of all nodes, in their order. -/
theorem Shows.root_shown_sublist (h : s.Shows tree) (depth : Nat) :
    (0 :: s.topLevel.flatMap (s.shownFrom depth)).Sublist (List.range s.nodes.size) := by
  have hroot : tree.namedPreorder[0]? = some tree := by
    rw [Concrete.namedPreorder_eq]
    rfl
  have hsublist := h.shownFrom_sublist (depth + 1) 0 hroot
  obtain ⟨grammar, extra, he⟩ := h
  rwa [← he.size_eq, ← List.range_eq_range'] at hsublist

theorem mem_shown_iff (h : s.tree.Numbered) {depth n : Nat} (hn : n < s.nodes.size) (h0 : n ≠ 0) :
    n ∈ s.topLevel.flatMap (s.shownFrom depth) ↔ ∃ k ≤ depth, s.tree.Depth n (k + 1) := by
  have hroot : n ∈ s.shownFrom (depth + 1) 0 ↔ _ := mem_shownFrom_iff h s.depth_root
  rw [shownFrom, List.mem_cons, or_iff_right h0] at hroot
  refine hroot.trans ⟨fun ⟨ha, j, hj, hd⟩ => ?_, fun ⟨k, hk, hd⟩ => ?_⟩
  · obtain ⟨i, hi⟩ := (s.depth_root.below h.parent_root' ha).resolve_left h0
    have := hd.unique hi
    exact ⟨i, by omega, by rwa [Nat.zero_add] at hi⟩
  · refine ⟨?_, k + 1, by omega, by rwa [Nat.zero_add]⟩
    have habove := h.root_above hn
    rwa [h.root_eq] at habove

end Shown

section Lines

variable {s : Snapshot}

/-- What the line of node `n` ends with, behind the span. -/
def outlineEnd (s : Snapshot) (depth level n : Nat) : String :=
  if (s.get n).children = [] then " " ++ Text.quoted (s.text n)
  else if level = depth then " ..." else ""

theorem outlineFrom_zero (s : Snapshot) (level n : Nat) :
    s.outlineFrom 0 level n = [s.outlineHead level n ++ s.outlineEnd level level n] := by
  rw [outlineFrom, outlineEnd, if_pos rfl]
  split_ifs <;> simp [String.append_assoc]

theorem outlineFrom_succ (s : Snapshot) (depth level n : Nat) :
    s.outlineFrom (depth + 1) level n
      = (s.outlineHead level n ++ s.outlineEnd (level + (depth + 1)) level n)
        :: (s.get n).children.flatMap fun c => s.outlineFrom depth (level + 1) c := by
  rw [outlineFrom, outlineEnd, if_neg (show level ≠ level + (depth + 1) by omega)]
  split_ifs with h
  · simp [h, String.append_assoc]
  · simp

theorem join_replicate (level : Nat) :
    String.join (List.replicate level "  ") = String.ofList (List.replicate (2 * level) ' ') := by
  rw [← String.toList_inj, String.toList_join, String.toList_ofList]
  induction level with
  | zero => rfl
  | succ level ih =>
    rw [List.replicate_succ, List.flatMap_cons, ih, Nat.mul_succ, Nat.add_comm,
      List.replicate_add]
    rfl

theorem tells_line {depth level n : Nat} (hn : s.tree.Depth n (level + 1)) (hle : level ≤ depth) :
    s.Tells depth n (s.outlineHead level n ++ s.outlineEnd depth level n) := by
  have hquoted : " " ++ Text.quoted (s.text n) ≠ " ..."
      ∧ " " ++ Text.quoted (s.text n) ≠ "" := by
    constructor
    · intro h
      have := congrArg String.toList h
      simp [Text.quoted] at this
    · intro h
      have := congrArg String.toList h
      simp at this
  refine ⟨level, s.outlineEnd depth level n, hn, hle, ?_, ?_, ?_, ?_⟩
  · rw [← join_replicate]
    rfl
  all_goals
    unfold outlineEnd
    by_cases hleaf : (s.get n).children = []
    · simp [hleaf, hquoted]
    · by_cases hlast : level = depth
      · simp [hleaf, hlast, Ne.symm hquoted.1]
      · have hlt : level < depth := by omega
        simp [hleaf, hlast, hlt]

/-- Children that are told of in order make up what is told below their parent. -/
theorem tells_children (h : s.tree.Numbered) {depth level p : Nat} (hp : s.tree.Depth p level)
    (hchild : ∀ c, s.tree.Depth c (level + 1) → List.Forall₂ (s.Tells (level + depth))
      (s.shownFrom depth c) (s.outlineFrom depth level c)) :
    List.Forall₂ (s.Tells (level + depth)) ((s.get p).children.flatMap (s.shownFrom depth))
      ((s.get p).children.flatMap (s.outlineFrom depth level)) := by
  have hsame : List.Forall₂ (fun a b => a = b ∧ s.tree.parent a = some p)
      (s.get p).children (s.get p).children :=
    List.forall₂_same.2 fun c hc => ⟨rfl, h.mem_children.1 hc⟩
  refine List.rel_flatMap hsame ?_
  rintro c _ ⟨rfl, hc⟩
  exact hchild c (hp.child h.parent_root' hc)

theorem tells_outlineFrom (h : s.tree.Numbered) : ∀ (depth : Nat) {level n : Nat},
    s.tree.Depth n (level + 1) →
      List.Forall₂ (s.Tells (level + depth)) (s.shownFrom depth n) (s.outlineFrom depth level n)
  | 0, level, n, hn => by
    rw [outlineFrom_zero, shownFrom]
    exact .cons (tells_line hn le_rfl) .nil
  | depth + 1, level, n, hn => by
    rw [outlineFrom_succ, shownFrom]
    refine .cons (tells_line hn (by omega)) ?_
    rw [← Nat.add_assoc, Nat.add_right_comm]
    exact tells_children h hn fun c hc => tells_outlineFrom h depth hc

theorem tells_outlineLines (h : s.tree.Numbered) (depth : Nat) :
    List.Forall₂ (s.Tells depth) (s.topLevel.flatMap (s.shownFrom depth))
      (s.outlineLines depth) := by
  have htop := tells_children h s.depth_root fun c hc => tells_outlineFrom h depth hc
  rwa [Nat.zero_add] at htop

theorem exists_told {depth : Nat} {ns : List Nat} {lines : List String}
    (h : List.Forall₂ (s.Tells depth) ns lines) {line : String} (hline : line ∈ lines) :
    ∃ n ∈ ns, s.Tells depth n line := by
  induction h with
  | nil => simp at hline
  | cons htells _ ih =>
    rcases List.mem_cons.1 hline with rfl | hline
    · exact ⟨_, List.mem_cons_self, htells⟩
    · obtain ⟨n, hn, htells⟩ := ih hline
      exact ⟨n, List.mem_cons_of_mem _ hn, htells⟩

theorem Tells.newline_not_mem {depth n : Nat} {line : String} (h : s.Tells depth n line)
    (hkind : '\n' ∉ (s.get n).kind.toList) (hfield : ∀ f ∈ (s.get n).field, '\n' ∉ f.toList) :
    '\n' ∉ line.toList := by
  obtain ⟨k, ending, -, hle, rfl, hleaf, hlast, hmiddle⟩ := h
  have hending : '\n' ∉ ending.toList := by
    by_cases hchildren : (s.get n).children = []
    · rw [hleaf.2 hchildren]
      simp [Text.newline_not_mem_quoted]
    · rcases Nat.eq_or_lt_of_le hle with hk | hk
      · rw [hlast.2 ⟨hchildren, hk⟩]
        decide
      · rw [hmiddle.2 ⟨hchildren, hk⟩]
        decide
  rcases hf : (s.get n).field with _ | f
  · simp [hkind, hending, Text.newline_not_mem_span]
  · simp [hkind, hending, Text.newline_not_mem_span, hfield f hf]

theorem Tells.ne_empty {depth n : Nat} {line : String} (h : s.Tells depth n line) : line ≠ "" := by
  obtain ⟨k, ending, -, -, rfl, -⟩ := h
  intro hempty
  have := congrArg String.toList hempty
  simp at this

end Lines

section Outline

variable {parser : Parser} {grammar : Grammar} {options : ParseOptions} {source : String}
  {s : Snapshot}

/-- The outline has one line for each node from the top level down to the depth, in the order of
their numbers. -/
theorem outline_parsed (hparse : parse parser grammar options source = .ok s)
    (hnames : ∀ node ∈ s.nodes, '\n' ∉ node.kind.toList ∧ ∀ f ∈ node.field, '\n' ∉ f.toList)
    (depth : Nat) :
    ∃ ns : List Nat, ns.Pairwise (· < ·)
      ∧ (∀ n, n ∈ ns ↔ n < s.nodes.size ∧ n ≠ 0 ∧ ∃ k ≤ depth, s.tree.Depth n (k + 1))
      ∧ List.Forall₂ (s.Tells depth) ns (textLines (s.outline depth)) := by
  obtain ⟨tree, htree, -⟩ := parse_eq_ok hparse
  have hshows := shows_of_parse hparse htree
  have hnum := numbered_of_parse hparse
  have hsublist := hshows.root_shown_sublist depth
  have hpairwise := List.pairwise_lt_range.sublist hsublist
  rw [List.pairwise_cons] at hpairwise
  have hlt : ∀ n ∈ s.topLevel.flatMap (s.shownFrom depth), n < s.nodes.size := fun n hn =>
    List.mem_range.1 (hsublist.subset (List.mem_cons_of_mem 0 hn))
  have htells := tells_outlineLines hnum depth
  have hlines : textLines (s.outline depth) = s.outlineLines depth := by
    refine textLines_intercalate (fun hempty => ?_) fun line hline => ?_
    · obtain ⟨n, -, hn⟩ := exists_told htells hempty
      exact hn.ne_empty rfl
    · obtain ⟨n, hn, hline⟩ := exists_told htells hline
      have hnode : s.get n ∈ s.nodes := by
        simp [get, Array.getD, hlt n hn]
      exact hline.newline_not_mem (hnames _ hnode).1 (hnames _ hnode).2
  refine ⟨s.topLevel.flatMap (s.shownFrom depth), hpairwise.2, fun n => ?_, hlines ▸ htells⟩
  constructor
  · intro hn
    have h0 : n ≠ 0 := (hpairwise.1 n hn).ne'
    exact ⟨hlt n hn, h0, (mem_shown_iff hnum (hlt n hn) h0).1 hn⟩
  · rintro ⟨hn, h0, hk⟩
    exact (mem_shown_iff hnum hn h0).2 hk

end Outline

end Snapshot

section Example

namespace Concrete

/-- The tree of `a+b` with an escaped line break after the `a`, which is a node without children
whose text ends a line. -/
def continued : Concrete :=
  .node (soundInfo "module" true none 0 6 (0, 0) (1, 2))
    [.node (soundInfo "expression_statement" true none 0 6 (0, 0) (1, 2))
      [.node (soundInfo "binary_operator" true none 0 6 (0, 0) (1, 2))
        [.node (soundInfo "identifier" true (some "left") 0 1 (0, 0) (0, 1)) [],
         .node (soundInfo "line_continuation" true none 2 4 (0, 2) (1, 0)) [],
         .node (soundInfo "+" false (some "operator") 4 5 (1, 0) (1, 1)) [],
         .node (soundInfo "identifier" true (some "right") 5 6 (1, 1) (1, 2)) []]]]

end Concrete

namespace Snapshot

/-- The snapshot of `a+b` with the line break. -/
def continuedSnapshot : Snapshot :=
  ⟨"python", "a \\\n+b", nodesOf "a \\\n+b" Grammar.python [] Concrete.continued⟩

/-- Down to the second level the text of the line break is shown, on one line. -/
theorem outline_continued :
    textLines (continuedSnapshot.outline 2)
        = ["expression_statement [1:1-2:2]", "  binary_operator [1:1-2:2]",
           "    left -> identifier [1:1-1:1] \"a\"", "    line_continuation [1:3-2:0] \"\\\\\\n\"",
           "    right -> identifier [2:2-2:2] \"b\""]
      ∧ ∃ ns : List Nat, ns.Pairwise (· < ·) ∧ ns.length = 5 ∧ 4 ∈ ns
        ∧ List.Forall₂ (continuedSnapshot.Tells 2) ns
            (textLines (continuedSnapshot.outline 2)) := by
  have hlines : textLines (continuedSnapshot.outline 2)
      = ["expression_statement [1:1-2:2]", "  binary_operator [1:1-2:2]",
         "    left -> identifier [1:1-1:1] \"a\"", "    line_continuation [1:3-2:0] \"\\\\\\n\"",
         "    right -> identifier [2:2-2:2] \"b\""] := by decide +kernel
  have hparse : parse (fun _ _ => some Concrete.continued) Grammar.python ⟨[], 100⟩ "a \\\n+b"
      = .ok continuedSnapshot := rfl
  obtain ⟨ns, hlt, hmem, htells⟩ := outline_parsed hparse (by decide +kernel) 2
  obtain ⟨h4, h2, h1⟩ : continuedSnapshot.tree.parent 4 = some 2
      ∧ continuedSnapshot.tree.parent 2 = some 1 ∧ continuedSnapshot.tree.parent 1 = some 0 := by
    decide +kernel
  have hroot : continuedSnapshot.tree.parent 0 = none := by decide +kernel
  have hdepth : continuedSnapshot.tree.Depth 4 3 :=
    ((continuedSnapshot.depth_root.child hroot h1).child hroot h2).child hroot h4
  refine ⟨hlines, ns, hlt, ?_, (hmem 4).2 ⟨by decide +kernel, by decide, 2, le_rfl, hdepth⟩, htells⟩
  rw [htells.length_eq, hlines]
  rfl

end Snapshot

end Example

end SyntaxQuery
