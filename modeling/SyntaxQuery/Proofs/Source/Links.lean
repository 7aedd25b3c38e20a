import SyntaxQuery.Proofs.Tree.Nested
import SyntaxQuery.Source.Snapshot

/-!
# The links of a snapshot

Copying the named nodes of a concrete tree takes a pending node, gives it the next number and puts
its named children in front of the others. Whatever the tree, each step leaves the links between the
copied nodes in order (`Linked.step`), so the finished snapshot is a numbered tree
(`numbered_of_parse`): every walk in it ends.
-/

namespace SyntaxQuery.Snapshot

/-- The nodes once `q` is copied too. -/
def grow (source : String) (grammar : Grammar) (extra : List String) (q : Pending)
    (nodes : Array Node) : Array Node :=
  link (nodes.push (copyOf source grammar extra q)) q.parent nodes.size

variable {source : String} {grammar : Grammar} {extra : List String}

section Grow

variable {q : Pending} {nodes : Array Node}

theorem getD_of_size_le {n : Nat} (h : nodes.size ≤ n) : nodes.getD n default = default := by
  rw [Array.getD_eq_getD_getElem?, Array.getElem?_eq_none h, Option.getD_none]

theorem getD_push (x : Node) (n : Nat) :
    (nodes.push x).getD n default = if n = nodes.size then x else nodes.getD n default := by
  rw [Array.getD_eq_getD_getElem?, Array.getElem?_push]
  split_ifs
  · rw [Option.getD_some]
  · rw [Array.getD_eq_getD_getElem?]

theorem getD_link {parent : Option Nat} {id : Nat} (h : ∀ p, parent = some p → p < nodes.size)
    (n : Nat) :
    (link nodes parent id).getD n default =
      { nodes.getD n default with
        children := (nodes.getD n default).children ++ if parent = some n then [id] else [] } := by
  cases parent with
  | none => simp [link]
  | some p =>
    have hp := h p rfl
    simp only [link, Array.getD_eq_getD_getElem?, Array.getElem?_modify]
    by_cases hn : p = n
    · subst hn
      simp [hp]
    · simp [hn]

@[simp]
theorem size_grow : (grow source grammar extra q nodes).size = nodes.size + 1 := by
  unfold grow
  cases q.parent <;> simp [link]

/-- A copied node keeps all that it has but its children. -/
theorem frame_grow {β : Sort*} (f : Node → β)
    (hf : ∀ node children, f { node with children := children } = f node)
    (hq : ∀ p, q.parent = some p → p < nodes.size) (n : Nat) :
    f ((grow source grammar extra q nodes).getD n default)
      = if n = nodes.size then f (copyOf source grammar extra q) else f (nodes.getD n default) := by
  unfold grow
  rw [getD_link (fun p hp => by rw [Array.size_push]; exact (hq p hp).trans (Nat.lt_succ_self _)),
    hf, getD_push]
  split_ifs <;> rfl

theorem parent_grow (hq : ∀ p, q.parent = some p → p < nodes.size) (n : Nat) :
    ((grow source grammar extra q nodes).getD n default).parent
      = if n = nodes.size then q.parent else (nodes.getD n default).parent :=
  frame_grow Node.parent (fun _ _ => rfl) hq n

/-- Only the parent of the new node gets a child, and it gets it as the last. -/
theorem children_grow (hq : ∀ p, q.parent = some p → p < nodes.size) (n : Nat) :
    ((grow source grammar extra q nodes).getD n default).children
      = (nodes.getD n default).children ++ if q.parent = some n then [nodes.size] else [] := by
  unfold grow
  rw [getD_link (fun p hp => by rw [Array.size_push]; exact (hq p hp).trans (Nat.lt_succ_self _)),
    getD_push]
  split_ifs with hn hnp
  · exact absurd (hq n hnp) (by omega)
  · rw [hn, getD_of_size_le le_rfl]
    rfl
  · rfl
  · rfl

theorem lt_size_of_parent {n p : Nat} (h : (nodes.getD n default).parent = some p) :
    n < nodes.size := by
  by_contra hn
  rw [getD_of_size_le (not_lt.1 hn)] at h
  have h : none = some p := h
  simp at h

end Grow

/-- What each step of copying keeps holds of the finished nodes. -/
theorem copyNamed_induction {P : List Pending → Array Node → Prop}
    (step : ∀ q rest nodes, P (q :: rest) nodes →
      P (childrenOf q nodes.size ++ rest) (grow source grammar extra q nodes))
    (pending : List Pending) (nodes : Array Node) (h : P pending nodes) :
    P [] (copyNamed source grammar extra pending nodes) := by
  fun_induction copyNamed source grammar extra pending nodes with
  | case1 nodes => exact h
  | case2 q rest nodes id linked ih => exact ih (step q rest nodes h)

/-- The first step copies the root. -/
theorem nodesOf_eq (tree : Concrete) :
    nodesOf source grammar extra tree =
      copyNamed source grammar extra (childrenOf ⟨tree, none, none⟩ 0)
        #[copyOf source grammar extra ⟨tree, none, none⟩] := by
  unfold nodesOf
  rw [copyNamed, List.append_nil]
  rfl

theorem parent_of_mem_childrenOf {q r : Pending} {id : Nat} (h : r ∈ childrenOf q id) :
    r.parent = some id := by
  obtain ⟨c, -, rfl⟩ := List.mem_map.1 h
  rfl

/-- The links among the copied nodes agree, and the pending nodes belong below them. -/
structure Linked (pending : List Pending) (nodes : Array Node) : Prop where
  size_pos : 0 < nodes.size
  parent_root : (nodes.getD 0 default).parent = none
  exists_parent : ∀ n, n ≠ 0 → n < nodes.size → ∃ p, (nodes.getD n default).parent = some p
  parent_lt : ∀ n p, (nodes.getD n default).parent = some p → p < n
  mem_children : ∀ p c, c ∈ (nodes.getD p default).children
    ↔ (nodes.getD c default).parent = some p
  children_lt : ∀ p, (nodes.getD p default).children.Pairwise (· < ·)
  pending_parent : ∀ q ∈ pending, ∃ p, q.parent = some p ∧ p < nodes.size

namespace Linked

theorem start (tree : Concrete) :
    Linked (childrenOf ⟨tree, none, none⟩ 0)
      #[copyOf source grammar extra ⟨tree, none, none⟩] := by
  have hget : ∀ n, ((#[copyOf source grammar extra ⟨tree, none, none⟩] : Array Node).getD n
      default).parent = none ∧ ((#[copyOf source grammar extra ⟨tree, none, none⟩] :
      Array Node).getD n default).children = [] := by
    intro n
    cases n <;> exact ⟨rfl, rfl⟩
  constructor
  · simp
  · rfl
  · intro n hn hlt
    simp only [List.size_toArray, List.length_singleton] at hlt
    omega
  · intro n p hp
    rw [(hget n).1] at hp
    simp at hp
  · intro p c
    rw [(hget p).2, (hget c).1]
    simp
  · intro p
    rw [(hget p).2]
    exact List.Pairwise.nil
  · intro q hq
    exact ⟨0, parent_of_mem_childrenOf hq, by simp⟩

/-- The children of a copied node have been copied. -/
theorem child_lt_size {pending : List Pending} {nodes : Array Node} (h : Linked pending nodes)
    {p c : Nat} (hc : c ∈ (nodes.getD p default).children) : c < nodes.size :=
  lt_size_of_parent ((h.mem_children p c).1 hc)

theorem pending_lt_size {pending : List Pending} {nodes : Array Node} (h : Linked pending nodes)
    {q : Pending} (hq : q ∈ pending) {p : Nat} (hp : q.parent = some p) : p < nodes.size := by
  obtain ⟨m, hm, hlt⟩ := h.pending_parent q hq
  rw [hp, Option.some.injEq] at hm
  exact hm ▸ hlt

theorem head_lt_size {q : Pending} {rest : List Pending} {nodes : Array Node}
    (h : Linked (q :: rest) nodes) (p : Nat) (hp : q.parent = some p) : p < nodes.size :=
  h.pending_lt_size List.mem_cons_self hp

theorem step (q : Pending) (rest : List Pending) (nodes : Array Node)
    (h : Linked (q :: rest) nodes) :
    Linked (childrenOf q nodes.size ++ rest) (grow source grammar extra q nodes) := by
  have hlt := h.head_lt_size
  have hnone : (nodes.getD nodes.size default).parent = none := by
    rw [getD_of_size_le le_rfl]
    rfl
  constructor
  · simp
  · rw [parent_grow hlt, if_neg h.size_pos.ne]
    exact h.parent_root
  · intro n hn hsize
    rw [size_grow] at hsize
    rw [parent_grow hlt]
    split_ifs with hns
    · obtain ⟨p, hp, -⟩ := h.pending_parent q List.mem_cons_self
      exact ⟨p, hp⟩
    · exact h.exists_parent n hn (by omega)
  · intro n m hm
    rw [parent_grow hlt] at hm
    split_ifs at hm with hns
    · rw [hns]
      exact hlt m hm
    · exact h.parent_lt n m hm
  · intro m c
    rw [parent_grow hlt, children_grow hlt, List.mem_append, h.mem_children m c]
    by_cases hcs : c = nodes.size
    · rw [if_pos hcs, hcs, hnone]
      by_cases hm : q.parent = some m <;> simp [hm]
    · rw [if_neg hcs]
      split_ifs <;> simp [hcs]
  · intro m
    rw [children_grow hlt, List.pairwise_append]
    refine ⟨h.children_lt m, ?_, ?_⟩
    · split_ifs <;> simp
    · intro a ha b hb
      split_ifs at hb
      · rw [List.mem_singleton.1 hb]
        exact h.child_lt_size ha
      · simp at hb
  · intro r hr
    rw [size_grow]
    rcases List.mem_append.1 hr with hr | hr
    · exact ⟨nodes.size, parent_of_mem_childrenOf hr, by omega⟩
    · obtain ⟨m, hm, hlt⟩ := h.pending_parent r (List.mem_cons_of_mem q hr)
      exact ⟨m, hm, by omega⟩

theorem nodesOf (tree : Concrete) : Linked [] (nodesOf source grammar extra tree) := by
  rw [nodesOf_eq]
  exact copyNamed_induction step _ _ (start tree)

theorem numbered {s : Snapshot} (h : Linked [] s.nodes) : s.tree.Numbered where
  root_eq := rfl
  root_lt := h.size_pos
  parent_root := h.parent_root
  exists_parent := h.exists_parent _
  parent_lt := h.parent_lt _ _
  lt_nodeCount := lt_size_of_parent
  mem_children := h.mem_children _ _
  children_lt := h.children_lt
  items_eq := by
    intro n is his
    have his : s.items n = some is := his
    unfold items at his
    split_ifs at his
    exact (Option.some.inj his).symm
  indexOf_eq := rfl

end Linked

theorem parse_eq_ok {parser : Parser} {options : ParseOptions} {s : Snapshot}
    (h : parse parser grammar options source = .ok s) :
    ∃ tree, parser grammar.name source = some tree
      ∧ s = ⟨grammar.name, source, nodesOf source grammar options.extra tree⟩ := by
  unfold parse at h
  split_ifs at h
  split at h
  · simp at h
  · rename_i tree htree
    split at h
    · simp at h
    · exact ⟨tree, htree, (Except.ok.inj h).symm⟩

theorem source_of_parse {parser : Parser} {options : ParseOptions} {s : Snapshot}
    (h : parse parser grammar options source = .ok s) : s.source = source := by
  obtain ⟨tree, -, rfl⟩ := parse_eq_ok h
  rfl

theorem language_of_parse {parser : Parser} {options : ParseOptions} {s : Snapshot}
    (h : parse parser grammar options source = .ok s) : s.language = grammar.name := by
  obtain ⟨tree, -, rfl⟩ := parse_eq_ok h
  rfl

theorem linked_of_parse {parser : Parser} {options : ParseOptions} {s : Snapshot}
    (h : parse parser grammar options source = .ok s) : Linked [] s.nodes := by
  obtain ⟨tree, -, rfl⟩ := parse_eq_ok h
  exact Linked.nodesOf tree

theorem numbered_of_parse {parser : Parser} {options : ParseOptions} {s : Snapshot}
    (h : parse parser grammar options source = .ok s) : s.tree.Numbered :=
  (linked_of_parse h).numbered

end SyntaxQuery.Snapshot
