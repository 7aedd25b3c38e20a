import SyntaxQuery.Proofs.Source.Preorder
import SyntaxQuery.Proofs.Tree.Total
import SyntaxQuery.Request.Method
import SyntaxQuery.Source.Report

/-!
# What the kinds of containers decide

Two snapshots of one tree that were made with different extra containers are `Alike`: they differ in
the marks of the containers and in nothing else (`Snapshot.alike_nodesOf`). No walk looks at the
marks (`Tree.SameLinks`), and of the questions about a snapshot only the region of a selection does,
once it has found the node at which the two ends part. So with more containers a region stays as it
is, or it was one node and is now a run of its children (`Tree.SameLinks.regionAt_cases`), whose
text is a part of the text of the node (`RegionReport.Refines`).
-/

namespace SyntaxQuery

namespace Tree

/-- The trees differ at most in their containers. -/
structure SameLinks {ν : Type} (t t' : Tree ν) : Prop where
  root_eq : t.root = t'.root
  parent_eq : t.parent = t'.parent
  children_eq : t.children = t'.children
  nodeCount_eq : t.nodeCount = t'.nodeCount
  span_eq : t.span = t'.span
  tag_eq : t.tag = t'.tag

namespace SameLinks

section Walks

variable {ν : Type} {t t' : Tree ν}

theorem childAt (h : t.SameLinks t') : t.childAt = t'.childAt := by
  funext pos n
  simp only [Tree.childAt, h.children_eq, h.span_eq]

theorem descend (h : t.SameLinks t') (pos : Position) :
    ∀ looks n, t.descend pos looks n = t'.descend pos looks n
  | 0, _ => rfl
  | looks + 1, n => by
    simp only [Tree.descend, h.childAt]
    split
    · rfl
    · exact descend h pos looks _

theorem nodeAt (h : t.SameLinks t') (pos : Position) : t.nodeAt pos = t'.nodeAt pos := by
  rw [Tree.nodeAt, Tree.nodeAt, h.descend, h.nodeCount_eq, h.root_eq]

variable [DecidableEq ν]

theorem climb (h : t.SameLinks t') (anchor : ν) :
    ∀ steps n, t.climb anchor steps n = t'.climb anchor steps n
  | 0, n => by simp only [Tree.climb, h.root_eq]
  | steps + 1, n => by
    simp only [Tree.climb, h.root_eq, h.parent_eq]
    split_ifs
    · rfl
    · split
      · rfl
      · rw [climb h anchor steps]

theorem ancestors (h : t.SameLinks t') (n : ν) : t.ancestors n = t'.ancestors n := by
  rw [Tree.ancestors, Tree.ancestors, h.climb, h.nodeCount_eq]

theorem scopesFrom (h : t.SameLinks t') (anchor : ν) :
    ∀ steps n inner, t.scopesFrom anchor steps n inner = t'.scopesFrom anchor steps n inner
  | 0, n, inner => by simp only [Tree.scopesFrom, h.root_eq]
  | steps + 1, n, inner => by
    simp only [Tree.scopesFrom, h.root_eq, h.parent_eq, h.span_eq, h.tag_eq]
    split_ifs
    · rfl
    · split
      · rfl
      · exact scopesFrom h anchor steps _ _

theorem scopes (h : t.SameLinks t') (n : ν) : t.scopes n = t'.scopes n := by
  rw [Tree.scopes, Tree.scopes, h.scopesFrom, h.nodeCount_eq]

end Walks

variable {t t' : Tree Nat}

theorem narrow (h : t.SameLinks t') (hn : t.Numbered) (hn' : t'.Numbered) {n : Nat}
    (hitems : t.items n = t'.items n) (a b : Nat) : t.narrow n a b = t'.narrow n a b := by
  simp only [Tree.narrow, hn.indexOf_eq, hn'.indexOf_eq, firstIndex, hitems, h.tag_eq]

theorem items_eq (h : t.SameLinks t') (hn : t.Numbered) (hn' : t'.Numbered) {n : Nat}
    (hsome : (t.items n).isSome = (t'.items n).isSome) : t.items n = t'.items n := by
  cases his : t.items n with
  | none =>
    rw [his, Option.isSome_none, eq_comm, Option.isSome_eq_false_iff,
      Option.isNone_iff_eq_none] at hsome
    exact hsome.symm
  | some is =>
    rw [his, Option.isSome_some, eq_comm, Option.isSome_iff_exists] at hsome
    obtain ⟨is', his'⟩ := hsome
    rw [his', hn.items_eq his, hn'.items_eq his', h.children_eq]

/-- Where one tree has more containers, a region is the same, or a node of the one is a run of its
children in the other. -/
theorem regionAt_cases (h : t.SameLinks t') (hn : t.Numbered) (hn' : t'.Numbered)
    (hmore : ∀ n, (t.items n).isSome → (t'.items n).isSome) (start stop : Position) :
    t.regionAt start stop = t'.regionAt start stop
      ∨ ∃ n before run after, t.items n = none ∧ (t'.items n).isSome
          ∧ t'.children n = before ++ run ++ after ∧ run ≠ []
          ∧ t.regionAt start stop = .ok (.node n)
          ∧ t'.regionAt start stop = .ok (.siblings run) := by
  obtain ⟨a, ha, hlt, -⟩ := hn.exists_nodeAt start
  obtain ⟨b, hb, hlt', -⟩ := hn.exists_nodeAt stop
  obtain ⟨la, hla, -⟩ := hn.exists_ancestors hlt
  obtain ⟨lb, hlb, -⟩ := hn.exists_ancestors hlt'
  have hregion := regionAt_eq_fork ha hb hla hlb
  rw [h.nodeAt] at ha hb
  rw [h.ancestors] at hla hlb
  have hregion' := regionAt_eq_fork ha hb hla hlb
  rw [← h.root_eq] at hregion'
  rcases hfork : fork t.root la.reverse lb.reverse with ⟨n, _ | ⟨x, y⟩⟩ <;>
    simp only [hfork] at hregion hregion'
  · exact Or.inl (hregion.trans hregion'.symm)
  · by_cases hsome : (t.items n).isSome = (t'.items n).isSome
    · rw [h.narrow hn hn' (h.items_eq hn hn' hsome)] at hregion
      exact Or.inl (hregion.trans hregion'.symm)
    · -- The node at which the ends part is a container of the second tree only.
      have hnone : t.items n = none := by
        cases his : t.items n with
        | none => rfl
        | some is =>
          have := hmore n (by simp [his])
          simp [his, this] at hsome
      have hnode : t.narrow n x y = .ok (.node n) := by simp only [Tree.narrow, hnone]
      rcases hn'.narrow_cases n x y with hsame | ⟨before, run, after, his, hsplit, hne, hrun⟩
      · exact Or.inl (by rw [hregion, hregion', hnode, hsame])
      · exact Or.inr ⟨n, before, run, after, hnone, his, hsplit, hne, hregion.trans hnode,
          hregion'.trans hrun⟩

end SameLinks

end Tree

namespace Snapshot

/-- The snapshots differ at most in which of their nodes are containers. -/
structure Alike (s s' : Snapshot) : Prop where
  source_eq : s.source = s'.source
  size_eq : s.nodes.size = s'.nodes.size
  kind : ∀ n, (s.get n).kind = (s'.get n).kind
  field : ∀ n, (s.get n).field = (s'.get n).field
  parent : ∀ n, (s.get n).parent = (s'.get n).parent
  children : ∀ n, (s.get n).children = (s'.get n).children
  startByte : ∀ n, (s.get n).startByte = (s'.get n).startByte
  endByte : ∀ n, (s.get n).endByte = (s'.get n).endByte
  span : ∀ n, (s.get n).span = (s'.get n).span

namespace Alike

variable {s s' : Snapshot}

theorem sameLinks (h : s.Alike s') : s.tree.SameLinks s'.tree where
  root_eq := rfl
  parent_eq := funext h.parent
  children_eq := funext h.children
  nodeCount_eq := h.size_eq
  span_eq := funext h.span
  tag_eq := funext h.kind

theorem text (h : s.Alike s') : s.text = s'.text := by
  funext n
  simp only [Snapshot.text, h.source_eq, h.startByte, h.endByte]

theorem topLevel (h : s.Alike s') : s.topLevel = s'.topLevel := h.children 0

theorem nodeReport (h : s.Alike s') : s.nodeReport = s'.nodeReport := by
  funext n
  simp only [Snapshot.nodeReport, h.kind, h.span, h.text]

theorem regionText (h : s.Alike s') : s.regionText = s'.regionText := by
  funext r
  simp only [Snapshot.regionText, h.source_eq, h.startByte, h.endByte]

theorem outlineHead (h : s.Alike s') : s.outlineHead = s'.outlineHead := by
  funext level n
  simp only [Snapshot.outlineHead, h.field, h.kind, h.span]

theorem outlineFrom (h : s.Alike s') :
    ∀ depth, s.outlineFrom depth = s'.outlineFrom depth
  | 0 => by
    funext level n
    simp only [Snapshot.outlineFrom, h.children, h.outlineHead, h.text]
  | depth + 1 => by
    funext level n
    simp only [Snapshot.outlineFrom, h.children, h.outlineHead, h.text, outlineFrom h depth]

theorem outline (h : s.Alike s') (depth : Nat) : s.outline depth = s'.outline depth := by
  simp only [Snapshot.outline, Snapshot.outlineLines, h.topLevel, h.outlineFrom]

theorem check (h : s.Alike s') (shape : Shape) : shape.check s = shape.check s' := by
  simp only [Shape.check, h.topLevel, h.kind, h.span]

theorem names (h : s.Alike s') : Method.names (some s) = Method.names (some s') := by
  simp only [Method.names, Method.accepts, h.check]

theorem childByField (h : s.Alike s') : s.childByField = s'.childByField := by
  funext n field
  simp only [Snapshot.childByField, h.children, h.field]

theorem argument? (h : s.Alike s') : s.argument? = s'.argument? := by
  funext n
  simp only [Snapshot.argument?, h.kind, h.childByField, h.text, h.children]

theorem functionArguments (h : s.Alike s') : s.functionArguments = s'.functionArguments := by
  simp only [Snapshot.functionArguments, h.check, Snapshot.arguments, h.childByField, h.children,
    h.argument?]

theorem nodeReportAt (h : s.Alike s') (pos : Position) :
    s.nodeReportAt pos = s'.nodeReportAt pos := by
  simp only [Snapshot.nodeReportAt, h.sameLinks.nodeAt, h.nodeReport]

theorem scopesAt (h : s.Alike s') (pos : Position) : s.scopesAt pos = s'.scopesAt pos := by
  have hscopes : s.tree.scopes = s'.tree.scopes := funext h.sameLinks.scopes
  simp only [Snapshot.scopesAt, h.sameLinks.nodeAt, hscopes]

end Alike

section Copies

variable {source : String} {grammar : Grammar} {extra extra' : List String}

theorem Enumerated.same_data {order : List Concrete} {nodes nodes' : Array Node}
    (h : Enumerated source grammar extra order [] nodes)
    (h' : Enumerated source grammar extra' order [] nodes') (n : Nat) :
    (nodes.getD n default).kind = (nodes'.getD n default).kind
      ∧ (nodes.getD n default).field = (nodes'.getD n default).field
      ∧ (nodes.getD n default).children = (nodes'.getD n default).children
      ∧ (nodes.getD n default).startByte = (nodes'.getD n default).startByte
      ∧ (nodes.getD n default).endByte = (nodes'.getD n default).endByte
      ∧ (nodes.getD n default).span = (nodes'.getD n default).span := by
  by_cases hn : n < order.length
  · have hc := List.getElem?_eq_getElem hn
    obtain ⟨hkind, hstart, hend, hspan, hfield, -⟩ := h.carries_get hc
    obtain ⟨hkind', hstart', hend', hspan', hfield', -⟩ := h'.carries_get hc
    exact ⟨hkind.trans hkind'.symm, hfield.trans hfield'.symm,
      (h.children_eq hc).trans (h'.children_eq hc).symm, hstart.trans hstart'.symm,
      hend.trans hend'.symm, hspan.trans hspan'.symm⟩
  · rw [getD_of_size_le (by rw [h.size_eq]; omega), getD_of_size_le (by rw [h'.size_eq]; omega)]
    simp

theorem alike_nodesOf (language : String) (tree : Concrete) :
    Alike ⟨language, source, nodesOf source grammar extra tree⟩
      ⟨language, source, nodesOf source grammar extra' tree⟩ := by
  have h : Enumerated source grammar extra _ [] _ := Enumerated.nodesOf tree
  have h' : Enumerated source grammar extra' _ [] _ := Enumerated.nodesOf tree
  have hl : Linked [] (nodesOf source grammar extra tree) := Linked.nodesOf tree
  have hl' : Linked [] (nodesOf source grammar extra' tree) := Linked.nodesOf tree
  have hdata := h.same_data h'
  refine ⟨rfl, h.size_eq.trans h'.size_eq.symm, fun n => (hdata n).1, fun n => (hdata n).2.1,
    fun n => ?_, fun n => (hdata n).2.2.1, fun n => (hdata n).2.2.2.1,
    fun n => (hdata n).2.2.2.2.1, fun n => (hdata n).2.2.2.2.2⟩
  -- A node has the parent among whose children it is.
  refine Option.ext fun p => ?_
  have hp := hl.mem_children p n
  rw [(hdata p).2.2.1, hl'.mem_children p n] at hp
  exact hp.symm

theorem isSome_items (s : Snapshot) (n : Nat) :
    (s.tree.items n).isSome = (s.get n).container := by
  show (s.items n).isSome = _
  unfold items
  split_ifs with h <;> simp [h]

end Copies

end Snapshot

namespace Concrete

/-- The nodes of the tree are whole characters of the source, children lie inside their parent and
siblings follow each other. -/
inductive Ranged (source : String) : Concrete → Prop
  | node {i : Info} {cs : List Concrete}
      (whole : ∃ text, Text.slice? source i.startByte i.endByte = some text)
      (inside : ∀ c ∈ cs, i.startByte ≤ c.info.startByte ∧ c.info.endByte ≤ i.endByte)
      (ordered : cs.Pairwise fun a b => a.info.endByte ≤ b.info.startByte)
      (children : ∀ c ∈ cs, Ranged source c) : Ranged source (.node i cs)

namespace Ranged

variable {source : String} {c tree : Concrete}

theorem of_placed (h : c.Placed source) : c.Ranged source := by
  induction h with
  | node info inside ordered _ ih =>
    obtain ⟨before, hb, hstart, -⟩ := Text.placed_iff.1 info.start
    obtain ⟨upTo, hu, hstop, -⟩ := Text.placed_iff.1 info.stop
    refine .node ?_ inside ordered ih
    rw [← hstart, ← hstop]
    exact Text.exists_slice? hb hu (by rw [hstart, hstop]; exact info.le)

theorem whole (h : c.Ranged source) :
    ∃ text, Text.slice? source c.info.startByte c.info.endByte = some text := by
  cases h with
  | node whole _ _ _ => exact whole

theorem inside (h : c.Ranged source) {d : Concrete} (hd : d ∈ c.namedChildren) :
    c.info.startByte ≤ d.info.startByte ∧ d.info.endByte ≤ c.info.endByte := by
  cases h with
  | node _ inside _ _ => exact inside d (List.mem_of_mem_filter hd)

theorem ordered (h : c.Ranged source) :
    c.namedChildren.Pairwise fun a b => a.info.endByte ≤ b.info.startByte := by
  cases h with
  | node _ _ ordered _ => exact ordered.filter _

theorem of_mem_namedPreorder (h : tree.Ranged source) (hc : c ∈ tree.namedPreorder) :
    c.Ranged source := by
  induction h with
  | node whole inside ordered children ih =>
    rw [namedPreorder_eq, List.mem_cons, List.mem_flatMap] at hc
    rcases hc with rfl | ⟨d, hd, hc⟩
    · exact .node whole inside ordered children
    · exact ih d (List.mem_of_mem_filter hd) hc

end Ranged

/-- The node by what it is, where it is and what it says. -/
def report (source : String) (c : Concrete) : NodeReport :=
  ⟨c.info.kind, Snapshot.spanOf source c.info,
    Text.slice source c.info.startByte c.info.endByte⟩

end Concrete

/-- The parser's tree for the source, if it gives one, has its nodes in order. -/
def Parser.Ranges (parser : Parser) (language source : String) : Prop :=
  ∀ tree, parser language source = some tree → tree.Ranged source

/-- The first report is of one node of `tree`, whose kind is in `kinds'` but not in `kinds`, and the
second of a run of the named children of that node, whose text is a part of its text. -/
def RegionReport.Refines (source : String) (tree : Concrete) (kinds kinds' : List String)
    (report report' : RegionReport) : Prop :=
  ∃ c ∈ tree.namedPreorder, ∃ before run after,
    c.info.kind ∈ kinds' ∧ c.info.kind ∉ kinds
      ∧ c.namedChildren = before ++ run ++ after ∧ run ≠ []
      ∧ run.Pairwise (fun a b => a.info.endByte ≤ b.info.startByte)
      ∧ report.region.kind = "node" ∧ report.nodes = [c.report source]
      ∧ report'.region.kind = "siblings" ∧ report'.nodes = run.map (·.report source)
      ∧ report'.text.toList <:+: report.text.toList

namespace Snapshot

section Refine

variable {source : String} {grammar : Grammar} {extra : List String} {tree c : Concrete} {n : Nat}

theorem nodeReport_nodesOf (hc : tree.namedPreorder[n]? = some c) :
    nodeReport ⟨grammar.name, source, nodesOf source grammar extra tree⟩ n = c.report source := by
  have h : Enumerated source grammar extra _ [] _ := Enumerated.nodesOf tree
  obtain ⟨hkind, hstart, hend, hspan, -⟩ := h.carries_get hc
  simp only [nodeReport, Concrete.report, text, get, hkind, hstart, hend, hspan]

theorem map_nodeReport_nodesOf {run : List Nat} {cs : List Concrete}
    (h : cs.map some = run.map (tree.namedPreorder[·]?)) :
    run.map (nodeReport ⟨grammar.name, source, nodesOf source grammar extra tree⟩)
      = cs.map (·.report source) := by
  induction run generalizing cs with
  | nil =>
    obtain rfl : cs = [] := by simpa using h
    rfl
  | cons m run ih =>
    cases cs with
    | nil => simp at h
    | cons d cs =>
      simp only [List.map_cons, List.cons.injEq] at h ⊢
      exact ⟨nodeReport_nodesOf h.1.symm, ih h.2⟩

theorem map_children_nodesOf (hc : tree.namedPreorder[n]? = some c) :
    ((nodesOf source grammar extra tree).getD n default).children.map (tree.namedPreorder[·]?)
      = c.namedChildren.map some := by
  have h : Enumerated source grammar extra _ [] _ := Enumerated.nodesOf tree
  exact h.map_children hc

theorem exists_child_of_mem (hc : tree.namedPreorder[n]? = some c) {m : Nat}
    (hm : m ∈ ((nodesOf source grammar extra tree).getD n default).children) :
    ∃ d ∈ c.namedChildren, tree.namedPreorder[m]? = some d := by
  have hmem := List.mem_map_of_mem (f := (tree.namedPreorder[·]?)) hm
  rw [map_children_nodesOf hc] at hmem
  obtain ⟨d, hd, hdm⟩ := List.mem_map.1 hmem
  exact ⟨d, hd, hdm.symm⟩

theorem regionText_siblings_isInfix (hc : tree.namedPreorder[n]? = some c)
    (hranged : c.Ranged source) {run : List Nat} (hne : run ≠ [])
    (hrun : ∀ m ∈ run, m ∈ ((nodesOf source grammar extra tree).getD n default).children) :
    let s : Snapshot := ⟨grammar.name, source, nodesOf source grammar extra tree⟩
    (s.regionText (.siblings run)).toList <:+: (s.regionText (.node n)).toList := by
  intro s
  have h : Enumerated source grammar extra _ [] _ := Enumerated.nodesOf tree
  obtain ⟨-, hstart, hend, -⟩ := h.carries_get hc
  have hinside : ∀ m ∈ run, c.info.startByte ≤ (s.get m).startByte
      ∧ (s.get m).endByte ≤ c.info.endByte := by
    intro m hm
    obtain ⟨d, hd, hdm⟩ := exists_child_of_mem hc (hrun m hm)
    obtain ⟨-, hstart, hend, -⟩ := h.carries_get hdm
    have := hranged.inside hd
    rwa [← hstart, ← hend] at this
  obtain ⟨cs, hcs⟩ := hranged.whole
  have hnode : s.regionText (.node n) = String.ofList cs := by
    show Text.slice source (s.get n).startByte (s.get n).endByte = _
    rw [Text.slice, get, hstart, hend, hcs]
  have hsiblings : s.regionText (.siblings run)
      = Text.slice source (s.get (run.head hne)).startByte (s.get (run.getLast hne)).endByte := by
    simp only [regionText, Region.nodes, List.head?_eq_some_head hne,
      List.getLast?_eq_some_getLast hne, s]
  rw [hnode, hsiblings, String.toList_ofList]
  exact Text.slice_isInfix hcs (hinside _ (List.head_mem hne)).1
    (hinside _ (List.getLast_mem hne)).2

variable {extra' : List String}

theorem refines_of_split (hranged : tree.Ranged source) (hc : tree.namedPreorder[n]? = some c)
    (hkind : c.info.kind ∈ extra') (hkind' : c.info.kind ∉ extra) {before run after : List Nat}
    (hsplit : ((nodesOf source grammar extra' tree).getD n default).children
      = before ++ run ++ after) (hne : run ≠ []) :
    let s : Snapshot := ⟨grammar.name, source, nodesOf source grammar extra tree⟩
    let s' : Snapshot := ⟨grammar.name, source, nodesOf source grammar extra' tree⟩
    RegionReport.Refines source tree extra extra'
      ⟨.node n, [s.nodeReport n], s.regionText (.node n)⟩
      ⟨.siblings run, run.map s'.nodeReport, s'.regionText (.siblings run)⟩ := by
  intro s s'
  have hmem := List.mem_of_getElem? hc
  have hcr := hranged.of_mem_namedPreorder hmem
  -- The named children fall into three parts as their copies do.
  have hmap : ((nodesOf source grammar extra' tree).getD n default).children.map
      (tree.namedPreorder[·]?) = c.namedChildren.map some := map_children_nodesOf hc
  rw [hsplit, List.map_append, List.map_append, eq_comm, List.map_eq_append_iff] at hmap
  obtain ⟨front, back, hchildren, hfront, hback⟩ := hmap
  obtain ⟨first, middle, rfl, hfirst, hmiddle⟩ := List.map_eq_append_iff.1 hfront
  refine ⟨c, hmem, first, middle, back, hkind, hkind', hchildren, ?_, ?_, rfl, ?_, rfl,
    map_nodeReport_nodesOf hmiddle, ?_⟩
  · rintro rfl
    exact hne (List.map_eq_nil_iff.1 hmiddle.symm)
  · have := hcr.ordered
    rw [hchildren, List.append_assoc] at this
    exact (List.pairwise_append.1 (List.pairwise_append.1 this).2.1).1
  · exact congrArg (fun r => [r]) (nodeReport_nodesOf hc)
  · have halike : s.Alike s' := alike_nodesOf grammar.name tree
    rw [halike.regionText]
    refine regionText_siblings_isInfix hc hcr hne fun m hm => ?_
    rw [hsplit]
    simp [hm]

theorem isSome_items_nodesOf (n : Nat) :
    let s : Snapshot := ⟨grammar.name, source, nodesOf source grammar extra tree⟩
    (s.tree.items n).isSome ↔ ∃ c, tree.namedPreorder[n]? = some c
      ∧ (n = 0 ∨ c.info.kind ∈ grammar.containers ∨ c.info.kind ∈ extra) := by
  intro s
  have h : Enumerated source grammar extra _ [] s.nodes := Enumerated.nodesOf tree
  rw [isSome_items]
  constructor
  · intro hn
    have hlt : n < tree.namedPreorder.length := by
      rw [← h.size_eq]
      by_contra hge
      rw [get, getD_of_size_le (not_lt.1 hge)] at hn
      have hn : false = true := hn
      simp at hn
    have hc := List.getElem?_eq_getElem hlt
    exact ⟨_, hc, (h.carries_get hc).2.2.2.2.2.1 hn⟩
  · rintro ⟨c, hc, hor⟩
    exact (h.carries_get hc).2.2.2.2.2.2 hor

variable (grammar) in
theorem regionReportAt_cases (hmore : ∀ k ∈ extra, k ∈ extra') (hranged : tree.Ranged source)
    (start stop : Position) :
    let s : Snapshot := ⟨grammar.name, source, nodesOf source grammar extra tree⟩
    let s' : Snapshot := ⟨grammar.name, source, nodesOf source grammar extra' tree⟩
    s.regionReportAt start stop = s'.regionReportAt start stop
      ∨ ∃ report report', s.regionReportAt start stop = .ok report
          ∧ s'.regionReportAt start stop = .ok report'
          ∧ RegionReport.Refines source tree extra extra' report report' := by
  intro s s'
  have halike : s.Alike s' := alike_nodesOf grammar.name tree
  have hnum : s.tree.Numbered := (Linked.nodesOf tree).numbered
  have hnum' : s'.tree.Numbered := (Linked.nodesOf tree).numbered
  have hitems : ∀ n, (s.tree.items n).isSome → (s'.tree.items n).isSome := by
    intro n hn
    obtain ⟨c, hc, hor⟩ := (isSome_items_nodesOf n).1 hn
    exact (isSome_items_nodesOf n).2 ⟨c, hc, hor.imp_right (Or.imp_right (hmore _))⟩
  rcases halike.sameLinks.regionAt_cases hnum hnum' hitems start stop with
    hsame | ⟨n, before, run, after, hnone, hsome, hsplit, hne, hr, hr'⟩
  · left
    simp only [regionReportAt, hsame, halike.nodeReport, halike.regionText]
  · right
    obtain ⟨c, hc, hor⟩ := (isSome_items_nodesOf n).1 hsome
    have hnot : ¬ (n = 0 ∨ c.info.kind ∈ grammar.containers ∨ c.info.kind ∈ extra) := by
      intro hor
      have hsome : (s.tree.items n).isSome := (isSome_items_nodesOf n).2 ⟨c, hc, hor⟩
      rw [hnone] at hsome
      simp at hsome
    rw [not_or, not_or] at hnot
    have hkind : c.info.kind ∈ extra' := (hor.resolve_left hnot.1).resolve_left hnot.2.1
    refine ⟨_, _, ?_, ?_, refines_of_split hranged hc hkind hnot.2.2 hsplit hne⟩
    · simp only [regionReportAt, hr]
      rfl
    · simp only [regionReportAt, hr']
      rfl

end Refine

end Snapshot

end SyntaxQuery
