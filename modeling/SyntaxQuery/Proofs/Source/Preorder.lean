import SyntaxQuery.Proofs.Source.Layout

/-!
# A snapshot lists its tree in preorder

The copied nodes are the beginning of `Concrete.namedPreorder`, and what is pending is the rest of
it. Each step copies the next node of the list, under the number that its parent awaits for it
(`Enumerated.step`). So node `n` of a snapshot carries what is known of the `n`th node of the list
(`Enumerated.carries_get`), and its children have the numbers of its named children
(`Enumerated.children_eq`).

The list leaves out what stands below a node without a name, and then so does the snapshot. The
tree of `a not in b` with a line break between the two words of the operator has such a node.
-/

namespace SyntaxQuery

namespace Snapshot

/-- Node `n` has what is known of the concrete node `c`. -/
def Carries (source : String) (grammar : Grammar) (extra : List String) (n : Nat) (c : Concrete)
    (node : Node) : Prop :=
  node.kind = c.info.kind ∧ node.startByte = c.info.startByte ∧ node.endByte = c.info.endByte
    ∧ node.span = spanOf source c.info
    ∧ node.field = (if n = 0 then none else c.info.field)
    ∧ (node.container = true ↔
        n = 0 ∨ c.info.kind ∈ grammar.containers ∨ c.info.kind ∈ extra)

/-- The numbers that the pending children of `n` are going to get, when `id` is the next number. -/
def awaited (n : Nat) : Nat → List Pending → List Nat
  | _, [] => []
  | id, q :: rest =>
    (if q.parent = some n then [id] else []) ++ awaited n (id + q.tree.namedPreorder.length) rest

theorem awaited_append (n : Nat) : ∀ (id : Nat) (a b : List Pending),
    awaited n id (a ++ b) =
      awaited n id a ++ awaited n (id + (a.flatMap (·.tree.namedPreorder)).length) b
  | _, [], _ => rfl
  | id, q :: a, b => by
    rw [List.cons_append, awaited, awaited, awaited_append, List.flatMap_cons, List.length_append,
      List.append_assoc, Nat.add_assoc]

theorem awaited_eq_nil {n : Nat} : ∀ (id : Nat) (pending : List Pending),
    (∀ q ∈ pending, q.parent ≠ some n) → awaited n id pending = []
  | _, [], _ => rfl
  | id, q :: rest, h => by
    rw [awaited, if_neg (h q List.mem_cons_self), List.nil_append]
    exact awaited_eq_nil _ rest fun r hr => h r (List.mem_cons_of_mem q hr)

theorem awaited_childrenOf_self (q : Pending) (n id : Nat) :
    awaited n id (childrenOf q n) = Concrete.numbersFrom id q.tree.namedChildren := by
  unfold childrenOf
  induction q.tree.namedChildren generalizing id with
  | nil => rfl
  | cons c cs ih => simp [awaited, Concrete.numbersFrom, ih]

theorem flatMap_childrenOf (q : Pending) (id : Nat) :
    (childrenOf q id).flatMap (·.tree.namedPreorder)
      = q.tree.namedChildren.flatMap Concrete.namedPreorder := by
  simp [childrenOf, List.flatMap_map]

theorem field_of_mem_childrenOf {q r : Pending} {id : Nat} (h : r ∈ childrenOf q id) :
    r.field = r.tree.info.field := by
  obtain ⟨c, -, rfl⟩ := List.mem_map.1 h
  rfl

variable {source : String} {grammar : Grammar} {extra : List String}

theorem carries_copyOf_root (tree : Concrete) :
    Carries source grammar extra 0 tree (copyOf source grammar extra ⟨tree, none, none⟩) := by
  simp [Carries, copyOf, isContainer]

theorem carries_copyOf {q : Pending} {n p : Nat} (hn : n ≠ 0) (hp : q.parent = some p)
    (hfield : q.field = q.tree.info.field) :
    Carries source grammar extra n q.tree (copyOf source grammar extra q) := by
  simp [Carries, copyOf, isContainer, hn, hp, hfield]

/-- The copied nodes begin the list `order` and the pending ones go on with it. -/
structure Enumerated (source : String) (grammar : Grammar) (extra : List String)
    (order : List Concrete) (pending : List Pending) (nodes : Array Node) : Prop where
  size_le : nodes.size ≤ order.length
  drop_size : order.drop nodes.size = pending.flatMap (·.tree.namedPreorder)
  carries : ∀ n < nodes.size, ∀ c, order[n]? = some c →
    Carries source grammar extra n c (nodes.getD n default)
  children : ∀ n < nodes.size, ∀ c, order[n]? = some c →
    (nodes.getD n default).children ++ awaited n nodes.size pending
      = Concrete.numbersFrom (n + 1) c.namedChildren
  pending_field : ∀ q ∈ pending, q.field = q.tree.info.field

namespace Enumerated

theorem start (tree : Concrete) :
    Enumerated source grammar extra tree.namedPreorder (childrenOf ⟨tree, none, none⟩ 0)
      #[copyOf source grammar extra ⟨tree, none, none⟩] := by
  have hroot : ∀ n < 1, ∀ c, tree.namedPreorder[n]? = some c → n = 0 ∧ c = tree := by
    intro n hn c hc
    obtain rfl : n = 0 := by omega
    rw [Concrete.namedPreorder_eq, List.getElem?_cons_zero, Option.some.injEq] at hc
    exact ⟨rfl, hc.symm⟩
  constructor
  · simp [Concrete.namedPreorder_eq tree]
  · rw [flatMap_childrenOf, Concrete.namedPreorder_eq tree]
    rfl
  · intro n hn c hc
    obtain ⟨rfl, rfl⟩ := hroot n hn c hc
    exact carries_copyOf_root c
  · intro n hn c hc
    obtain ⟨rfl, rfl⟩ := hroot n hn c hc
    exact awaited_childrenOf_self ⟨c, none, none⟩ 0 1
  · exact fun q hq => field_of_mem_childrenOf hq

section Step

variable {order : List Concrete} {q : Pending} {rest : List Pending} {nodes : Array Node}

theorem getElem?_size (h : Enumerated source grammar extra order (q :: rest) nodes) :
    order[nodes.size]? = some q.tree := by
  rw [← List.head?_drop, h.drop_size, List.flatMap_cons, Concrete.namedPreorder_eq]
  rfl

/-- What the other nodes await does not change when `q` is copied and its children are pending. -/
theorem awaited_step {n : Nat} (hn : n ≠ nodes.size) :
    (if q.parent = some n then [nodes.size] else [])
        ++ awaited n (nodes.size + 1) (childrenOf q nodes.size ++ rest)
      = awaited n nodes.size (q :: rest) := by
  have hchildren : awaited n (nodes.size + 1) (childrenOf q nodes.size) = [] := by
    refine awaited_eq_nil _ _ fun r hr => ?_
    rw [parent_of_mem_childrenOf hr, ne_eq, Option.some.injEq]
    exact hn.symm
  rw [awaited_append, hchildren, List.nil_append, flatMap_childrenOf, awaited,
    Concrete.namedPreorder_eq q.tree, List.length_cons]
  congr 2
  omega

theorem children_grow_eq (h : Enumerated source grammar extra order (q :: rest) nodes)
    (hl : Linked (q :: rest) nodes) {n : Nat} (hn : n < nodes.size + 1) {c : Concrete}
    (hc : order[n]? = some c) :
    ((grow source grammar extra q nodes).getD n default).children
        ++ awaited n (nodes.size + 1) (childrenOf q nodes.size ++ rest)
      = Concrete.numbersFrom (n + 1) c.namedChildren := by
  have hlt := hl.head_lt_size
  rw [children_grow hlt]
  by_cases hns : n = nodes.size
  · subst hns
    rw [h.getElem?_size, Option.some.injEq] at hc
    subst hc
    have hrest : ∀ id, awaited nodes.size id rest = [] := by
      refine fun id => awaited_eq_nil _ _ fun r hr hp => ?_
      exact (hl.pending_lt_size (List.mem_cons_of_mem q hr) hp).ne rfl
    rw [getD_of_size_le le_rfl, if_neg fun hp => (hlt _ hp).ne rfl, awaited_append,
      awaited_childrenOf_self, hrest]
    simp [default, instInhabitedNode.default]
  · rw [List.append_assoc, awaited_step hns]
    exact h.children n (by omega) c hc

theorem step (q : Pending) (rest : List Pending) (nodes : Array Node)
    (hl : Linked (q :: rest) nodes) (h : Enumerated source grammar extra order (q :: rest) nodes) :
    Enumerated source grammar extra order (childrenOf q nodes.size ++ rest)
      (grow source grammar extra q nodes) := by
  constructor
  · have := (List.getElem?_eq_some_iff.1 h.getElem?_size).1
    rw [size_grow]
    omega
  · rw [size_grow, ← List.tail_drop, h.drop_size, List.flatMap_cons, Concrete.namedPreorder_eq,
      List.flatMap_append, flatMap_childrenOf]
    rfl
  · intro n hn c hc
    rw [size_grow] at hn
    rw [frame_grow (Carries source grammar extra n c) (fun _ _ => rfl) hl.head_lt_size]
    split_ifs with hns
    · subst hns
      rw [h.getElem?_size, Option.some.injEq] at hc
      subst hc
      obtain ⟨p, hp, -⟩ := hl.pending_parent q List.mem_cons_self
      exact carries_copyOf hl.size_pos.ne' hp (h.pending_field q List.mem_cons_self)
    · exact h.carries n (by omega) c hc
  · intro n hn c hc
    rw [size_grow] at hn ⊢
    exact h.children_grow_eq hl hn hc
  · intro r hr
    rcases List.mem_append.1 hr with hr | hr
    · exact field_of_mem_childrenOf hr
    · exact h.pending_field r (List.mem_cons_of_mem q hr)

end Step

theorem nodesOf (tree : Concrete) :
    Enumerated source grammar extra tree.namedPreorder []
      (nodesOf source grammar extra tree) := by
  rw [nodesOf_eq]
  refine (copyNamed_induction (P := fun pending nodes => Linked pending nodes
    ∧ Enumerated source grammar extra tree.namedPreorder pending nodes) ?_ _ _ ?_).2
  · exact fun q rest nodes h => ⟨h.1.step q rest nodes, h.2.step q rest nodes h.1⟩
  · exact ⟨Linked.start tree, start tree⟩

section Finished

variable {order : List Concrete} {nodes : Array Node} {n : Nat} {c : Concrete}

theorem size_eq (h : Enumerated source grammar extra order [] nodes) :
    nodes.size = order.length :=
  le_antisymm h.size_le (List.drop_eq_nil_iff.1 h.drop_size)

theorem lt_size (h : Enumerated source grammar extra order [] nodes) (hc : order[n]? = some c) :
    n < nodes.size := by
  rw [h.size_eq]
  exact (List.getElem?_eq_some_iff.1 hc).1

/-- No child is awaited any more, so each node has the numbers of all its named children. -/
theorem children_eq (h : Enumerated source grammar extra order [] nodes)
    (hc : order[n]? = some c) :
    (nodes.getD n default).children = Concrete.numbersFrom (n + 1) c.namedChildren := by
  have := h.children n (h.lt_size hc) c hc
  rwa [awaited, List.append_nil] at this

theorem carries_get (h : Enumerated source grammar extra order [] nodes)
    (hc : order[n]? = some c) : Carries source grammar extra n c (nodes.getD n default) :=
  h.carries n (h.lt_size hc) c hc

/-- The children of a copied node are the copies of its named children: their trees follow the node
in the list. -/
theorem map_children {tree : Concrete}
    (h : Enumerated source grammar extra tree.namedPreorder [] nodes)
    (hc : tree.namedPreorder[n]? = some c) :
    (nodes.getD n default).children.map (tree.namedPreorder[·]?) = c.namedChildren.map some := by
  obtain ⟨rest, hrest⟩ := Concrete.namedPreorder_drop hc
  rw [h.children_eq hc]
  refine Concrete.map_numbersFrom _ ⟨rest, ?_⟩
  rw [← List.tail_drop, ← hrest, Concrete.namedPreorder_eq c]
  rfl

end Finished

end Enumerated

theorem nodesOf_namedPreorder (source : String) (grammar : Grammar) (extra : List String)
    (tree : Concrete) :
    let s : Snapshot := ⟨grammar.name, source, nodesOf source grammar extra tree⟩
    let order := tree.namedPreorder
    s.nodes.size = order.length
      ∧ (∀ n c, order[n]? = some c →
          Carries source grammar extra n c (s.get n)
          ∧ s.tree.children n = Concrete.numbersFrom (n + 1) c.namedChildren
          ∧ (s.tree.children n).map (order[·]?) = c.namedChildren.map some)
      ∧ (∀ n < s.nodes.size, s.tree.parent n = none ↔ n = 0)
      ∧ (∀ a b, b ∈ s.tree.children a ↔ s.tree.parent b = some a)
      ∧ (∀ a b, s.tree.parent b = some a → a < b ∧ b < s.nodes.size)
      ∧ (∀ a, (s.tree.children a).Pairwise (· < ·) ∧ (s.tree.children a).Nodup)
      ∧ ∀ n < s.nodes.size, s.tree.Above 0 n := by
  intro s order
  have he : Enumerated source grammar extra order [] s.nodes := Enumerated.nodesOf tree
  have hnum : s.tree.Numbered := (Linked.nodesOf tree).numbered
  refine ⟨he.size_eq, fun n c hc => ?_, fun n hn => ?_, fun a b => hnum.mem_children, ?_, ?_, ?_⟩
  · have hchildren : s.tree.children n = Concrete.numbersFrom (n + 1) c.namedChildren :=
      he.children_eq hc
    refine ⟨he.carries_get hc, hchildren, ?_⟩
    -- The trees of the named children follow the node in the list.
    obtain ⟨rest, hrest⟩ := Concrete.namedPreorder_drop hc
    rw [hchildren]
    refine Concrete.map_numbersFrom _ ⟨rest, ?_⟩
    rw [← List.tail_drop, ← hrest, Concrete.namedPreorder_eq c]
    rfl
  · constructor
    · intro hnone
      by_contra hne
      obtain ⟨p, hp⟩ := hnum.exists_parent hne hn
      rw [hnone] at hp
      simp at hp
    · rintro rfl
      exact hnum.parent_root
  · exact fun a b hp => ⟨hnum.parent_lt hp, hnum.lt_nodeCount hp⟩
  · exact fun a => ⟨hnum.children_lt a, hnum.nodup_children a⟩
  · exact fun n hn => hnum.root_above hn

/-- Of `x=é` and `y`: the statements are numbers 1 and 5, and the second child of the assignment is
the `é`. -/
theorem nodesOf_twoStatements :
    twoStatementsSnapshot.nodes.size = 7
      ∧ twoStatementsSnapshot.tree.children 0 = [1, 5]
      ∧ Carries "x=é\ny" Grammar.python [] 4
          (.node (Concrete.soundInfo "identifier" true (some "right") 2 4 (0, 2) (0, 4)) [])
          (twoStatementsSnapshot.get 4)
      ∧ twoStatementsSnapshot.tree.Above 0 4 := by
  obtain ⟨hsize, hnode, -, -, -, -, habove⟩ :=
    nodesOf_namedPreorder "x=é\ny" Grammar.python [] Concrete.twoStatements
  refine ⟨hsize, (hnode 0 Concrete.twoStatements rfl).2.1, (hnode 4 _ rfl).1, habove 4 ?_⟩
  rw [hsize]
  decide

/-! ## Named nodes that are not copied -/

theorem parse_namedPreorder {parser : Parser} {options : ParseOptions} {s : Snapshot}
    (hparse : parse parser grammar options source = .ok s) :
    ∃ tree, parser grammar.name source = some tree
      ∧ s.nodes.size = tree.namedPreorder.length
      ∧ (∀ n c, tree.namedPreorder[n]? = some c →
          Carries source grammar options.extra n c (s.get n))
      ∧ tree.namedPreorder.Sublist (tree :: Concrete.namedNodes tree.children)
      ∧ (tree.namedPreorder = tree :: Concrete.namedNodes tree.children
          ↔ Concrete.NoneHidden tree.children) := by
  obtain ⟨tree, htree, rfl⟩ := parse_eq_ok hparse
  have he : Enumerated source grammar options.extra tree.namedPreorder []
    (Snapshot.nodesOf source grammar options.extra tree) := Enumerated.nodesOf tree
  exact ⟨tree, htree, he.size_eq, fun n c hc => he.carries_get hc, tree.namedPreorder_sublist,
    tree.namedPreorder_eq_iff⟩

end Snapshot

section Example

namespace Concrete

/-- The tree of `a not in b` with an escaped line break after the `not`. The operator is one
node without a name, and the break is a named node between its two words. -/
def notIn : Concrete :=
  .node (soundInfo "module" true none 0 12 (0, 0) (1, 4))
    [.node (soundInfo "expression_statement" true none 0 12 (0, 0) (1, 4))
      [.node (soundInfo "comparison_operator" true none 0 12 (0, 0) (1, 4))
        [.node (soundInfo "identifier" true none 0 1 (0, 0) (0, 1)) [],
         .node (soundInfo "not in" false (some "operators") 2 10 (0, 2) (1, 2))
          [.node (soundInfo "not" false none 2 5 (0, 2) (0, 5)) [],
           .node (soundInfo "line_continuation" true none 6 8 (0, 6) (1, 0)) [],
           .node (soundInfo "in" false none 8 10 (1, 0) (1, 2)) []],
         .node (soundInfo "identifier" true none 11 12 (1, 3) (1, 4)) []]]]

theorem placed_notIn : notIn.Placed "a not \\\nin b" :=
  placed_iff_preorder.2 (by decide)

end Concrete

namespace Snapshot

/-- The snapshot of `a not in b` with the line break. -/
def notInSnapshot : Snapshot :=
  ⟨"python", "a not \\\nin b", nodesOf "a not \\\nin b" Grammar.python [] Concrete.notIn⟩

theorem parse_notIn :
    parse (fun _ _ => some Concrete.notIn) Grammar.python ⟨[], 100⟩ "a not \\\nin b"
      = .ok notInSnapshot := rfl

theorem parse_namedPreorder_notIn :
    notInSnapshot.nodes.size = 5
      ∧ (Concrete.notIn :: Concrete.namedNodes Concrete.notIn.children).length = 6
      ∧ ¬ Concrete.NoneHidden Concrete.notIn.children := by
  obtain ⟨tree, htree, hsize, -, -, hiff⟩ := parse_namedPreorder parse_notIn
  obtain rfl := Option.some.inj htree
  refine ⟨hsize, rfl, fun hnone => ?_⟩
  have := congrArg List.length (hiff.2 hnone)
  exact absurd this (by decide)

/-- The line break is a named node of a tree without faults, and the snapshot does not have it. -/
theorem exists_named_not_copied :
    (∀ d ∈ Concrete.notIn.preorder, d.info.isFault = false)
      ∧ Concrete.notIn.Placed "a not \\\nin b"
      ∧ parse (fun _ _ => some Concrete.notIn) Grammar.python ⟨[], 100⟩ "a not \\\nin b"
          = .ok notInSnapshot
      ∧ (∃ d ∈ Concrete.notIn.preorder, d.info.named = true ∧ d.info.kind = "line_continuation")
      ∧ ∀ node ∈ notInSnapshot.nodes, node.kind ≠ "line_continuation" :=
  ⟨by decide, Concrete.placed_notIn, parse_notIn, by decide, by decide +kernel⟩

end Snapshot

end Example

end SyntaxQuery
