import SyntaxQuery.Error
import SyntaxQuery.Proofs.Concrete.Preorder
import SyntaxQuery.Proofs.Source.Layout

/-!
# The first fault of a source

The search for a fault passes over a tree that reports none. Where every node above a fault reports
it (`FaultsReported`), nothing is missed that way: the search finds what a search through all nodes
in preorder would find (`firstFault?_eq_find?`). A node that reports a fault and has none only costs
a look at the nodes below it.

So a source is refused exactly when its tree has a fault, and the first one is named
(`Snapshot.parse_refuses_first_fault`).
-/

namespace SyntaxQuery

namespace Concrete

/-- Every node above a fault reports one. -/
def FaultsReported (cs : List Concrete) : Prop :=
  ∀ d ∈ preorders cs, ∀ e ∈ d.descendants, e.info.isFault → d.info.hasError

theorem faultsReported_cons {i : Info} {ds cs : List Concrete} :
    FaultsReported (.node i ds :: cs) ↔
      (∀ e ∈ preorders ds, e.info.isFault → i.hasError) ∧ FaultsReported ds
        ∧ FaultsReported cs := by
  simp only [FaultsReported, preorders_cons, List.mem_cons, List.mem_append, or_imp, forall_and,
    forall_eq]
  rfl

theorem firstFaults?_cons (c : Concrete) (cs : List Concrete) :
    firstFaults? (c :: cs) = c.firstFault?.or (firstFaults? cs) := by
  rw [firstFaults?]
  cases c.firstFault? <;> rfl

theorem firstFaults?_eq_find? (cs : List Concrete) (h : FaultsReported cs) :
    firstFaults? cs = ((preorders cs).find? (·.info.isFault)).map info := by
  induction cs using forest_induction with
  | nil => simp [firstFaults?, preorders]
  | cons i ds cs hds hcs =>
    obtain ⟨hroot, hbelow, hbeside⟩ := faultsReported_cons.1 h
    rw [firstFaults?_cons, hcs hbeside, firstFault?, preorders_cons]
    by_cases hi : i.isFault
    · simp [hi, info]
    · rw [if_neg hi, List.find?_cons_of_neg (by simpa [info] using hi), List.find?_append,
        Option.map_or]
      congr 1
      split_ifs with herror
      · exact hds hbelow
      · -- A fault below would have been reported.
        have hnone : (preorders ds).find? (·.info.isFault) = none :=
          List.find?_eq_none.2 fun e he hfault => herror (hroot e he hfault)
        rw [hnone, Option.map_none]

theorem preorders_singleton (c : Concrete) : preorders [c] = c.preorder := by
  rw [preorders, preorders, List.append_nil]

theorem firstFault?_eq_find? {c : Concrete} (h : FaultsReported [c]) :
    c.firstFault? = (c.preorder.find? (·.info.isFault)).map info := by
  have hall := firstFaults?_eq_find? [c] h
  rwa [firstFaults?_cons, firstFaults?, Option.or_none, preorders_singleton] at hall

end Concrete

namespace Snapshot

open Concrete (FaultsReported)

theorem parse_of_tree {parser : Parser} {grammar : Grammar} {options : ParseOptions}
    {source : String} {tree : Concrete} (htree : parser grammar.name source = some tree)
    (hsize : source.utf8ByteSize ≤ options.maxBytes) :
    parse parser grammar options source = match tree.firstFault? with
      | some i => .error (.fault (spanOf source i).topLeft i.isMissing i.kind)
      | none => .ok ⟨grammar.name, source, nodesOf source grammar options.extra tree⟩ := by
  rcases hfault : tree.firstFault? with _ | i <;>
    simp only [parse, if_neg (not_lt.2 hsize), htree, hfault]

theorem parse_refuses_first_fault (tree : Concrete)
    (hreported : ∀ d ∈ tree.preorder, ∀ e ∈ d.descendants, e.info.isFault → d.info.hasError) :
    tree.firstFault? = (tree.preorder.find? (·.info.isFault)).map Concrete.info
      ∧ (tree.firstFault? = none ↔ ∀ d ∈ tree.preorder, ¬ d.info.isFault)
      ∧ ∀ (parser : Parser) (grammar : Grammar) (options : ParseOptions) (source : String),
          parser grammar.name source = some tree → source.utf8ByteSize ≤ options.maxBytes →
          ((∃ s, parse parser grammar options source = .ok s)
            ↔ ∀ d ∈ tree.preorder, ¬ d.info.isFault)
          ∧ ∀ before bad after, tree.preorder = before ++ bad :: after →
              (∀ d ∈ before, ¬ d.info.isFault) → bad.info.isFault → ∀ origin,
              (parse parser grammar options source).mapError (ParseError.toError origin)
                = .error (.parseFailed origin
                    ("syntax error at " ++ (spanOf source bad.info).topLeft.toText ++ ": "
                      ++ (if bad.info.isMissing then "missing" else "unexpected")
                      ++ " `" ++ bad.info.kind ++ "`")) := by
  have hfind : tree.firstFault? = (tree.preorder.find? (·.info.isFault)).map Concrete.info :=
    Concrete.firstFault?_eq_find? (by rwa [FaultsReported, Concrete.preorders_singleton])
  have hnone : tree.firstFault? = none ↔ ∀ d ∈ tree.preorder, ¬ d.info.isFault := by
    rw [hfind, Option.map_eq_none_iff, List.find?_eq_none]
  refine ⟨hfind, hnone, fun parser grammar options source htree hsize => ⟨?_, ?_⟩⟩
  · rw [parse_of_tree htree hsize, ← hnone]
    rcases tree.firstFault? with _ | i <;> simp
  · intro before bad after hsplit hbefore hbad origin
    have hfirst : tree.preorder.find? (·.info.isFault) = some bad :=
      List.find?_eq_some_iff_append.2 ⟨hbad, before, after, hsplit, by simpa using hbefore⟩
    rw [parse_of_tree htree hsize, hfind, hfirst]
    rfl

end Snapshot

section Example

namespace Concrete

/-- The tree of the Bash source `x=(1 2`, whose bracket is never closed. -/
def unclosed : Concrete :=
  .node { soundInfo "program" true none 0 6 (0, 0) (0, 6) with hasError := true }
    [.node { soundInfo "variable_assignment" true none 0 6 (0, 0) (0, 6) with hasError := true }
      [.node (soundInfo "variable_name" true (some "name") 0 1 (0, 0) (0, 1)) [],
       .node (soundInfo "=" false none 1 2 (0, 1) (0, 2)) [],
       .node { soundInfo "array" true (some "value") 2 6 (0, 2) (0, 6) with hasError := true }
        [.node (soundInfo "(" false none 2 3 (0, 2) (0, 3)) [],
         .node (soundInfo "number" true none 3 4 (0, 3) (0, 4)) [],
         .node (soundInfo "number" true none 5 6 (0, 5) (0, 6)) [],
         .node { soundInfo ")" false none 6 6 (0, 6) (0, 6) with
           isMissing := true
           hasError := true } []]]]

end Concrete

/-- The bracket that the parser had to add is named. -/
theorem Snapshot.parse_refuses_unclosed :
    Concrete.unclosed.firstFault?.map (·.kind) = some ")"
      ∧ (parse (fun _ _ => some Concrete.unclosed) Grammar.bash ⟨[], 100⟩ "x=(1 2").mapError
          (ParseError.toError "x.sh")
        = .error (.parseFailed "x.sh" "syntax error at 1:7: missing `)`") := by
  obtain ⟨hfind, -, hparse⟩ := parse_refuses_first_fault Concrete.unclosed (by decide)
  refine ⟨by rw [hfind]; rfl, ?_⟩
  have hfirst := (hparse (fun _ _ => some Concrete.unclosed) Grammar.bash ⟨[], 100⟩ "x=(1 2" rfl
    (by decide)).2 (Concrete.unclosed.preorder.take 8) _ [] rfl (by decide) (by decide) "x.sh"
  exact hfirst

end Example

end SyntaxQuery
