import Mathlib.Data.List.Forall2
import SyntaxQuery.Proofs.Source.Preorder
import SyntaxQuery.Source.Report

/-!
# Arguments and parameters

A snapshot that `Shows` a tree answers for a node as the node of the tree would: its kind and text
are those of the node, and its children are the copies of the named children, one by one and in
order. So the arguments of a function are read off the entries of its parameter list, one for each
entry that is no separator (`Shows.functionArguments`).

Not every such entry is a parameter. A comment or an escaped line break can stand anywhere in the
list, and as a named node it is an entry like the others. The arguments are the parameters exactly
when there is none (`functionArguments_parsed`).
-/

namespace SyntaxQuery

namespace Concrete

/-- The source text of the node. -/
def text (source : String) (c : Concrete) : String :=
  Text.slice source c.info.startByte c.info.endByte

/-- The first named child that fills `field`. -/
def childByField (c : Concrete) (field : String) : Option Concrete :=
  c.namedChildren.find? fun d => d.info.field = some field

/-- Whether the node divides a list of parameters and is none itself. -/
def isSeparator (c : Concrete) : Bool :=
  c.info.kind = "keyword_separator" ∨ c.info.kind = "positional_separator"

/-- Whether the node is of a kind that can stand between any two others. -/
def isExtra (c : Concrete) : Bool :=
  c.info.kind = "comment" ∨ c.info.kind = "line_continuation"

/-- The parameters among the entries of a list. -/
def parameters (list : Concrete) : List Concrete :=
  list.namedChildren.filter fun e => !e.isSeparator && !e.isExtra

/-- The argument that an entry stands for: its name and its default, where it has fields for them;
the first part of an annotated name; and otherwise all that it says. -/
def declares (source : String) (c : Concrete) : Argument :=
  if c.info.kind = "default_parameter" ∨ c.info.kind = "typed_default_parameter" then
    { name := ((c.childByField "name").map (text source)).getD ""
      default := (c.childByField "value").map (text source) }
  else if c.info.kind = "typed_parameter" then
    { name := (c.namedChildren.head?.map (text source)).getD "", default := none }
  else { name := c.text source, default := none }

theorem isSeparator_eq_false_of_isExtra {c : Concrete} (h : c.isExtra) :
    c.isSeparator = false := by
  simp only [isExtra, decide_eq_true_eq] at h
  rcases h with h | h <;> simp [isSeparator, h]

theorem le_of_mem_numbersFrom {m : Nat} : ∀ {id : Nat} {cs : List Concrete},
    m ∈ numbersFrom id cs → id ≤ m
  | _, [], h => by simp [numbersFrom] at h
  | id, c :: cs, h => by
    rw [numbersFrom, List.mem_cons] at h
    rcases h with rfl | h
    · exact le_rfl
    · exact (Nat.le_add_right id _).trans (le_of_mem_numbersFrom h)

/-- Only a list without extras loses none when its extras are left out too. -/
theorem map_parameters_eq_iff {α : Type} (f : Concrete → α) (list : Concrete) :
    (list.namedChildren.filter (!·.isSeparator)).map f = list.parameters.map f
      ↔ ∀ e ∈ list.namedChildren, ¬ e.isExtra := by
  have hfilter : list.parameters
      = (list.namedChildren.filter (!·.isSeparator)).filter (!·.isExtra) := by
    rw [List.filter_filter]
    exact List.filter_congr fun e _ => Bool.and_comm _ _
  constructor
  · intro h e he hextra
    have hlen := congrArg List.length h
    rw [List.length_map, List.length_map, hfilter, eq_comm,
      List.length_filter_eq_length_iff] at hlen
    have := hlen e (List.mem_filter.2 ⟨he, by simp [isSeparator_eq_false_of_isExtra hextra]⟩)
    simp [hextra] at this
  · intro h
    have hself : list.parameters = list.namedChildren.filter (!·.isSeparator) := by
      rw [hfilter, List.filter_eq_self]
      intro e he
      simp [h e (List.mem_of_mem_filter he)]
    rw [hself]

end Concrete

namespace Snapshot

section Pairs

variable {R : Nat → Concrete → Prop} {ns : List Nat} {cs : List Concrete}

theorem find?_pairs {p : Nat → Bool} {q : Concrete → Bool} (hpq : ∀ n c, R n c → p n = q c)
    (h : List.Forall₂ R ns cs) : Option.Rel R (ns.find? p) (cs.find? q) := by
  induction h with
  | nil => exact .none
  | @cons n c ns cs hnc _ ih =>
    rw [List.find?_cons, List.find?_cons, hpq n c hnc]
    cases q c with
    | true => exact .some hnc
    | false => exact ih

theorem head?_pairs (h : List.Forall₂ R ns cs) : Option.Rel R ns.head? cs.head? := by
  cases h with
  | nil => exact .none
  | cons hnc _ => exact .some hnc

theorem map_pair {α : Type} {f : Nat → α} {g : Concrete → α} (hfg : ∀ n c, R n c → f n = g c)
    {n? : Option Nat} {c? : Option Concrete} (h : Option.Rel R n? c?) : n?.map f = c?.map g := by
  cases h with
  | none => rfl
  | some hnc => exact congrArg some (hfg _ _ hnc)

end Pairs

/-- The nodes of the snapshot are the copies of the listed nodes of `tree`. -/
def Shows (s : Snapshot) (tree : Concrete) : Prop :=
  ∃ grammar extra, Enumerated s.source grammar extra tree.namedPreorder [] s.nodes

/-- Node `m` of the snapshot is the copy of `d`, which is not the root of `tree`. -/
structure Copies (s : Snapshot) (tree : Concrete) (m : Nat) (d : Concrete) : Prop where
  listed : tree.namedPreorder[m]? = some d
  field_eq : (s.get m).field = d.info.field

theorem shows_of_parse {parser : Parser} {grammar : Grammar} {options : ParseOptions}
    {source : String} {s : Snapshot} {tree : Concrete}
    (hparse : parse parser grammar options source = .ok s)
    (htree : parser grammar.name source = some tree) : s.Shows tree := by
  obtain ⟨tree', htree', rfl⟩ := parse_eq_ok hparse
  rw [htree, Option.some.injEq] at htree'
  subst htree'
  exact ⟨grammar, options.extra, Enumerated.nodesOf tree⟩

namespace Shows

variable {s : Snapshot} {tree c : Concrete} {n : Nat}

theorem kind (h : s.Shows tree) (hc : tree.namedPreorder[n]? = some c) :
    (s.get n).kind = c.info.kind := by
  obtain ⟨grammar, extra, he⟩ := h
  exact (he.carries_get hc).1

theorem text (h : s.Shows tree) (hc : tree.namedPreorder[n]? = some c) :
    s.text n = c.text s.source := by
  obtain ⟨grammar, extra, he⟩ := h
  obtain ⟨-, hstart, hend, -⟩ := he.carries_get hc
  simp only [Snapshot.text, Concrete.text, get, hstart, hend]

theorem children (h : s.Shows tree) (hc : tree.namedPreorder[n]? = some c) :
    List.Forall₂ (s.Copies tree) (s.get n).children c.namedChildren := by
  obtain ⟨grammar, extra, he⟩ := h
  have hlisted := he.map_children hc
  rw [← List.forall₂_eq_eq_eq, List.forall₂_map_left_iff, List.forall₂_map_right_iff] at hlisted
  have hpos : ∀ m ∈ (s.nodes.getD n default).children, m ≠ 0 := by
    intro m hm
    rw [he.children_eq hc] at hm
    have := Concrete.le_of_mem_numbersFrom hm
    omega
  refine ((List.forall₂_and_left _ _).2 ⟨hpos, hlisted⟩).imp fun m d ⟨hm, hd⟩ => ⟨hd, ?_⟩
  obtain ⟨-, -, -, -, hfield, -⟩ := he.carries_get hd
  rwa [if_neg hm] at hfield

theorem childByField (h : s.Shows tree) (hc : tree.namedPreorder[n]? = some c) (field : String) :
    Option.Rel (s.Copies tree) (s.childByField n field) (c.childByField field) :=
  find?_pairs (fun m d hmd => by rw [hmd.field_eq]) (h.children hc)

theorem argument? (h : s.Shows tree) (hc : tree.namedPreorder[n]? = some c) :
    s.argument? n = if c.isSeparator then none else some (c.declares s.source) := by
  have htext : ∀ m d, s.Copies tree m d → s.text m = d.text s.source := fun m d hmd =>
    h.text hmd.listed
  have hfield : ∀ field, (s.childByField n field).map s.text
      = (c.childByField field).map (Concrete.text s.source) := fun field =>
    map_pair htext (h.childByField hc field)
  have hhead : (s.get n).children.head?.map s.text
      = c.namedChildren.head?.map (Concrete.text s.source) :=
    map_pair htext (head?_pairs (h.children hc))
  simp only [Snapshot.argument?, Concrete.declares, Concrete.isSeparator, h.kind hc, hfield, hhead,
    h.text hc, decide_eq_true_eq]
  split_ifs <;> rfl

/-- Entry by entry, what is no separator declares an argument. -/
theorem filterMap_argument? (h : s.Shows tree) {ns : List Nat} {cs : List Concrete}
    (hpairs : List.Forall₂ (s.Copies tree) ns cs) :
    ns.filterMap s.argument? = (cs.filter (!·.isSeparator)).map (·.declares s.source) := by
  induction hpairs with
  | nil => rfl
  | @cons m d ns cs hmd _ ih =>
    rw [List.filterMap_cons, List.filter_cons, h.argument? hmd.listed]
    cases d.isSeparator with
    | true => exact ih
    | false => exact congrArg (_ :: ·) ih

theorem functionArguments {function list : Concrete} (h : s.Shows tree)
    (hsingle : tree.namedChildren = [function])
    (hkind : function.info.kind = "function_definition")
    (hlist : function.childByField "parameters" = some list) :
    s.functionArguments
      = .ok ((list.namedChildren.filter (!·.isSeparator)).map (·.declares s.source)) := by
  have hroot : tree.namedPreorder[0]? = some tree := by
    rw [Concrete.namedPreorder_eq]
    rfl
  have htop := h.children hroot
  rw [hsingle] at htop
  obtain ⟨m, ns, hm, hns, htop⟩ := List.forall₂_cons_right_iff.1 htop
  obtain rfl := List.forall₂_nil_right_iff.1 hns
  have hcheck : Shape.function.check s = .ok [m] := by
    simp [Shape.check, Shape.function, topLevel, htop, h.kind hm.listed, hkind]
  obtain ⟨p, hp, hplist⟩ : ∃ p, s.childByField m "parameters" = some p
      ∧ tree.namedPreorder[p]? = some list := by
    have hrel := h.childByField hm.listed "parameters"
    rw [hlist] at hrel
    cases hfound : s.childByField m "parameters" with
    | none =>
      rw [hfound] at hrel
      cases hrel
    | some p =>
      rw [hfound] at hrel
      cases hrel with
      | some hpd => exact ⟨p, rfl, hpd.listed⟩
  simp only [Snapshot.functionArguments, hcheck, Snapshot.arguments, hp]
  rw [h.filterMap_argument? (h.children hplist)]

end Shows

theorem functionArguments_parsed {parser : Parser} {grammar : Grammar} {options : ParseOptions}
    {source : String} {s : Snapshot} {tree function list : Concrete}
    (hparse : parse parser grammar options source = .ok s)
    (htree : parser grammar.name source = some tree)
    (hsingle : tree.namedChildren = [function])
    (hkind : function.info.kind = "function_definition")
    (hlist : function.childByField "parameters" = some list) :
    s.functionArguments
        = .ok ((list.namedChildren.filter (!·.isSeparator)).map (·.declares source))
      ∧ (s.functionArguments = .ok (list.parameters.map (·.declares source))
          ↔ ∀ e ∈ list.namedChildren, ¬ e.isExtra) := by
  have hentries := (shows_of_parse hparse htree).functionArguments hsingle hkind hlist
  rw [source_of_parse hparse] at hentries
  refine ⟨hentries, ?_⟩
  rw [hentries, Except.ok.injEq]
  exact Concrete.map_parameters_eq_iff _ list

end Snapshot

section Example

namespace Concrete

/-- The parameter list `(a: T, *, b=1)`, with a comment and a line break before the `b`. -/
def commentedList : Concrete :=
  .node (soundInfo "parameters" true (some "parameters") 5 24 (0, 5) (1, 5))
    [.node (soundInfo "(" false none 5 6 (0, 5) (0, 6)) [],
     .node (soundInfo "typed_parameter" true none 6 10 (0, 6) (0, 10))
      [.node (soundInfo "identifier" true none 6 7 (0, 6) (0, 7)) [],
       .node (soundInfo ":" false none 7 8 (0, 7) (0, 8)) [],
       .node (soundInfo "type" true (some "type") 9 10 (0, 9) (0, 10))
        [.node (soundInfo "identifier" true none 9 10 (0, 9) (0, 10)) []]],
     .node (soundInfo "," false none 10 11 (0, 10) (0, 11)) [],
     .node (soundInfo "keyword_separator" true none 12 13 (0, 12) (0, 13))
      [.node (soundInfo "*" false none 12 13 (0, 12) (0, 13)) []],
     .node (soundInfo "," false none 13 14 (0, 13) (0, 14)) [],
     .node (soundInfo "comment" true none 15 18 (0, 15) (0, 18)) [],
     .node (soundInfo "default_parameter" true none 20 23 (1, 1) (1, 4))
      [.node (soundInfo "identifier" true (some "name") 20 21 (1, 1) (1, 2)) [],
       .node (soundInfo "=" false none 21 22 (1, 2) (1, 3)) [],
       .node (soundInfo "integer" true (some "value") 22 23 (1, 3) (1, 4)) []],
     .node (soundInfo ")" false none 23 24 (1, 4) (1, 5)) []]

/-- A function with that list. -/
def commentedFunction : Concrete :=
  .node (soundInfo "function_definition" true none 0 30 (0, 0) (1, 11))
    [.node (soundInfo "def" false none 0 3 (0, 0) (0, 3)) [],
     .node (soundInfo "identifier" true (some "name") 4 5 (0, 4) (0, 5)) [],
     commentedList,
     .node (soundInfo ":" false none 24 25 (1, 5) (1, 6)) [],
     .node (soundInfo "block" true (some "body") 26 30 (1, 7) (1, 11))
      [.node (soundInfo "pass_statement" true none 26 30 (1, 7) (1, 11))
        [.node (soundInfo "pass" false none 26 30 (1, 7) (1, 11)) []]]]

def commented : Concrete :=
  .node (soundInfo "module" true none 0 30 (0, 0) (1, 11)) [commentedFunction]

theorem placed_commented : commented.Placed "def f(a: T, *, # c\n b=1): pass" :=
  placed_iff_preorder.2 (by decide)

end Concrete

namespace Snapshot

/-- The snapshot of the function with the comment. -/
def commentedSnapshot : Snapshot :=
  ⟨"python", "def f(a: T, *, # c\n b=1): pass",
    nodesOf "def f(a: T, *, # c\n b=1): pass" Grammar.python [] Concrete.commented⟩

theorem parse_commented :
    parse (fun _ _ => some Concrete.commented) Grammar.python ⟨[], 100⟩
      "def f(a: T, *, # c\n b=1): pass" = .ok commentedSnapshot := rfl

theorem functionArguments_parsed_commented :
    commentedSnapshot.functionArguments = .ok [⟨"a", none⟩, ⟨"# c", none⟩, ⟨"b", some "1"⟩]
      ∧ commentedSnapshot.functionArguments ≠ .ok (Concrete.commentedList.parameters.map
          (·.declares "def f(a: T, *, # c\n b=1): pass")) := by
  have hsingle : Concrete.commented.namedChildren = [Concrete.commentedFunction] := rfl
  have hlist : Concrete.commentedFunction.childByField "parameters"
      = some Concrete.commentedList := rfl
  obtain ⟨hentries, hiff⟩ := functionArguments_parsed parse_commented rfl hsingle rfl hlist
  exact ⟨hentries.trans (by decide +kernel), hiff.not.2 (by decide)⟩

/-- The comment is no parameter, and there is an argument for it. -/
theorem exists_argument_not_parameter :
    Concrete.commented.Placed "def f(a: T, *, # c\n b=1): pass"
      ∧ parse (fun _ _ => some Concrete.commented) Grammar.python ⟨[], 100⟩
          "def f(a: T, *, # c\n b=1): pass" = .ok commentedSnapshot
      ∧ Concrete.commented.namedChildren = [Concrete.commentedFunction]
      ∧ Concrete.commentedFunction.childByField "parameters" = some Concrete.commentedList
      ∧ Concrete.commentedList.parameters.map (·.declares "def f(a: T, *, # c\n b=1): pass")
          = [⟨"a", none⟩, ⟨"b", some "1"⟩]
      ∧ commentedSnapshot.functionArguments
          = .ok [⟨"a", none⟩, ⟨"# c", none⟩, ⟨"b", some "1"⟩] :=
  ⟨Concrete.placed_commented, parse_commented, rfl, rfl, by decide +kernel, by decide +kernel⟩

end Snapshot

end Example

end SyntaxQuery
