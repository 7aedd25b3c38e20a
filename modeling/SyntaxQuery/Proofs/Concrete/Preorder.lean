import Mathlib.Data.List.Infix
import SyntaxQuery.Concrete.Basic

/-!
# Concrete trees in preorder

`preorder` lists all nodes of a tree. `namedPreorder` lists the root and, below each node that it
lists, the named children: it never looks below a node without a name. It is a part of the named
nodes in their order (`namedPreorder_sublist`), and it is all of them just when no node without a
name hides one (`namedPreorder_eq_iff`).

When several trees are listed one after another and the nodes are counted, each tree has the number
of its first node (`numbersFrom`), and the numbers lead back to the trees (`map_numbersFrom`).
-/

namespace SyntaxQuery.Concrete

/-- Several trees are taken apart by their first node: what is below it, and the other trees. -/
theorem forest_induction {motive : List Concrete → Prop} (nil : motive [])
    (cons : ∀ i ds cs, motive ds → motive cs → motive (.node i ds :: cs)) :
    ∀ cs, motive cs
  | [] => nil
  | .node i ds :: cs => cons i ds cs (forest_induction nil cons ds) (forest_induction nil cons cs)
termination_by cs => sizes cs
decreasing_by
  all_goals
    simp only [sizes, size]
    omega

mutual

/-- All nodes in preorder. -/
def preorder : Concrete → List Concrete
  | node i cs => node i cs :: preorders cs

/-- All nodes of several trees. -/
def preorders : List Concrete → List Concrete
  | [] => []
  | c :: cs => c.preorder ++ preorders cs

end

/-- All nodes below the root, in preorder. -/
def descendants (c : Concrete) : List Concrete := preorders c.children

mutual

/-- The root and, below each node that is listed, its named children, in preorder. -/
def namedPreorder : Concrete → List Concrete
  | node i cs => node i cs :: namedPreorders cs

/-- The same of those of several trees that have a name. -/
def namedPreorders : List Concrete → List Concrete
  | [] => []
  | c :: cs => if c.info.named then c.namedPreorder ++ namedPreorders cs else namedPreorders cs

end

theorem preorders_cons (i : Info) (ds cs : List Concrete) :
    preorders (.node i ds :: cs) = .node i ds :: (preorders ds ++ preorders cs) := by
  rw [preorders, preorder, List.cons_append]

theorem namedPreorders_cons (i : Info) (ds cs : List Concrete) :
    namedPreorders (.node i ds :: cs) =
      if i.named then .node i ds :: (namedPreorders ds ++ namedPreorders cs)
      else namedPreorders cs := by
  rw [namedPreorders, namedPreorder, List.cons_append]
  rfl

theorem namedPreorders_eq (cs : List Concrete) :
    namedPreorders cs = (cs.filter (·.info.named)).flatMap namedPreorder := by
  induction cs with
  | nil => rfl
  | cons c cs ih =>
    rw [namedPreorders]
    by_cases hc : c.info.named <;> simp [hc, ih]

theorem namedPreorder_eq (c : Concrete) :
    c.namedPreorder = c :: c.namedChildren.flatMap namedPreorder := by
  cases c with
  | node i cs =>
    rw [namedPreorder, namedPreorders_eq]
    rfl

/-! ## Numbers -/

/-- The number of the first node of each tree, when the first of all has the number `id`. -/
def numbersFrom (id : Nat) : List Concrete → List Nat
  | [] => []
  | c :: cs => id :: numbersFrom (id + c.namedPreorder.length) cs

theorem map_numbersFrom {order : List Concrete} : ∀ {id : Nat} (cs : List Concrete),
    cs.flatMap namedPreorder <+: order.drop id →
      (numbersFrom id cs).map (order[·]?) = cs.map some
  | _, [], _ => rfl
  | id, c :: cs, h => by
    obtain ⟨rest, hrest⟩ := h
    rw [List.flatMap_cons, List.append_assoc] at hrest
    have hhead : order[id]? = some c := by
      rw [← List.head?_drop, ← hrest, namedPreorder_eq]
      rfl
    have htail : cs.flatMap namedPreorder <+: order.drop (id + c.namedPreorder.length) := by
      rw [← List.drop_drop, ← hrest, List.drop_left]
      exact List.prefix_append _ _
    rw [numbersFrom, List.map_cons, List.map_cons, hhead, map_numbersFrom cs htail]

/-- What is listed from a node on begins with the nodes of its own tree. -/
theorem namedPreorders_drop {c : Concrete} {n : Nat} (cs : List Concrete)
    (h : (namedPreorders cs)[n]? = some c) : c.namedPreorder <+: (namedPreorders cs).drop n := by
  induction cs using forest_induction generalizing n with
  | nil => simp [namedPreorders] at h
  | cons i ds cs hds hcs =>
    rw [namedPreorders_cons] at h ⊢
    split_ifs at h ⊢
    · cases n with
      | zero =>
        obtain rfl : node i ds = c := by simpa using h
        rw [namedPreorder, List.drop_zero, ← List.cons_append]
        exact List.prefix_append _ _
      | succ n =>
        rw [List.getElem?_cons_succ, List.getElem?_append] at h
        rw [List.drop_succ_cons, List.drop_append]
        split_ifs at h with hlt
        · exact (hds h).trans (List.prefix_append _ _)
        · rw [List.drop_eq_nil_of_le (not_lt.1 hlt), List.nil_append]
          exact hcs h
    · exact hcs h

theorem namedPreorder_drop {tree c : Concrete} {n : Nat} (h : tree.namedPreorder[n]? = some c) :
    c.namedPreorder <+: tree.namedPreorder.drop n := by
  cases tree with
  | node i cs =>
    rw [namedPreorder] at h ⊢
    cases n with
    | zero =>
      obtain rfl : node i cs = c := by simpa using h
      rw [namedPreorder]
      exact List.prefix_rfl
    | succ n => exact namedPreorders_drop cs h

/-! ## Hidden nodes -/

/-- All named nodes of several trees, in preorder. -/
def namedNodes (cs : List Concrete) : List Concrete := (preorders cs).filter (·.info.named)

/-- No node without a name stands above a named one. -/
def NoneHidden (cs : List Concrete) : Prop :=
  ∀ d ∈ preorders cs, ¬ d.info.named → ∀ e ∈ d.descendants, ¬ e.info.named

theorem namedNodes_cons (i : Info) (ds cs : List Concrete) :
    namedNodes (.node i ds :: cs) =
      if i.named then .node i ds :: (namedNodes ds ++ namedNodes cs)
      else namedNodes ds ++ namedNodes cs := by
  simp only [namedNodes, preorders_cons, List.filter_cons, List.filter_append, info]

theorem namedNodes_eq_nil_iff {cs : List Concrete} :
    namedNodes cs = [] ↔ ∀ e ∈ preorders cs, ¬ e.info.named :=
  List.filter_eq_nil_iff

theorem mem_preorders_of_mem_descendants {d e : Concrete} (he : e ∈ d.descendants)
    (cs : List Concrete) (hd : d ∈ preorders cs) : e ∈ preorders cs := by
  induction cs using forest_induction with
  | nil => simp [preorders] at hd
  | cons i ds cs hds hcs =>
    rw [preorders_cons, List.mem_cons, List.mem_append] at hd ⊢
    rcases hd with rfl | hd | hd
    · exact Or.inr (Or.inl he)
    · exact Or.inr (Or.inl (hds hd))
    · exact Or.inr (Or.inr (hcs hd))

theorem noneHidden_cons {i : Info} {ds cs : List Concrete} :
    NoneHidden (.node i ds :: cs) ↔
      (¬ i.named → namedNodes ds = []) ∧ NoneHidden ds ∧ NoneHidden cs := by
  simp only [NoneHidden, preorders_cons, namedNodes_eq_nil_iff, List.mem_cons, List.mem_append,
    or_imp, forall_and, forall_eq]
  rfl

/-- Below trees without a named node nothing is hidden. -/
theorem noneHidden_of_namedNodes {cs : List Concrete} (h : namedNodes cs = []) :
    NoneHidden cs := by
  intro d hd _ e he
  exact namedNodes_eq_nil_iff.1 h e (mem_preorders_of_mem_descendants he cs hd)

theorem namedPreorders_sublist (cs : List Concrete) :
    (namedPreorders cs).Sublist (namedNodes cs) := by
  induction cs using forest_induction with
  | nil => exact List.Sublist.refl []
  | cons i ds cs hds hcs =>
    rw [namedPreorders_cons, namedNodes_cons]
    split_ifs
    · exact (hds.append hcs).cons_cons _
    · exact hcs.trans (List.sublist_append_right _ _)

/-- Where each part can only lose nodes, nothing is lost when no part loses any. -/
theorem append_eq_append_iff_of_sublist {a a' b b' : List Concrete} (ha : a.Sublist a')
    (hb : b.Sublist b') : a ++ b = a' ++ b' ↔ a = a' ∧ b = b' := by
  constructor
  · intro h
    have hlen := congrArg List.length h
    rw [List.length_append, List.length_append] at hlen
    have := ha.length_le
    have := hb.length_le
    exact ⟨ha.eq_of_length (by omega), hb.eq_of_length (by omega)⟩
  · rintro ⟨rfl, rfl⟩
    rfl

theorem namedPreorders_eq_iff (cs : List Concrete) :
    namedPreorders cs = namedNodes cs ↔ NoneHidden cs := by
  induction cs using forest_induction with
  | nil => simp [namedPreorders, namedNodes, preorders, NoneHidden]
  | cons i ds cs hds hcs =>
    rw [namedPreorders_cons, namedNodes_cons, noneHidden_cons, ← hcs]
    by_cases hn : i.named
    · rw [if_pos hn, if_pos hn, List.cons.injEq, append_eq_append_iff_of_sublist
        (namedPreorders_sublist ds) (namedPreorders_sublist cs), hds]
      simp [hn]
    · -- What is below a node without a name is lost.
      rw [if_neg hn, if_neg hn, ← List.nil_append (namedPreorders cs),
        append_eq_append_iff_of_sublist (List.nil_sublist _) (namedPreorders_sublist cs)]
      constructor
      · rintro ⟨hnil, heq⟩
        exact ⟨fun _ => hnil.symm, noneHidden_of_namedNodes hnil.symm, heq⟩
      · rintro ⟨hnil, -, heq⟩
        exact ⟨(hnil hn).symm, heq⟩

theorem namedPreorder_sublist (c : Concrete) :
    c.namedPreorder.Sublist (c :: namedNodes c.children) := by
  cases c with
  | node i cs =>
    rw [namedPreorder]
    exact (namedPreorders_sublist cs).cons_cons _

theorem namedPreorder_eq_iff (c : Concrete) :
    c.namedPreorder = c :: namedNodes c.children ↔ NoneHidden c.children := by
  cases c with
  | node i cs =>
    rw [namedPreorder, List.cons.injEq, ← namedPreorders_eq_iff]
    simp [children]

end SyntaxQuery.Concrete
