import SyntaxQuery.Proofs.Source.Queries

/-!
# The text of a region

Two characters are selected by their positions, the region is found by spans, and its text is cut
out by byte offsets. All three agree: the text starts no later than the first of the characters and
ends no earlier than the second (`regionReportAt_covers`), and it is made of the texts of the
covered nodes with what stands between them (`Strung`).
-/

namespace SyntaxQuery

open Text

/-- The text consists of the parts, in order, and of anything in between. -/
inductive Strung : List String → String → Prop
  | single (part : String) : Strung [part] part
  | cons (part gap : String) {parts : List String} {text : String} (h : Strung parts text) :
      Strung (part :: parts) (part ++ gap ++ text)

namespace Strung

theorem head_isPrefix {parts : List String} {text part : String} (h : Strung parts text)
    (hpart : parts.head? = some part) : part.toList <+: text.toList := by
  cases h with
  | single first =>
    obtain rfl := Option.some.inj hpart
    exact List.prefix_rfl
  | cons first gap h =>
    obtain rfl := Option.some.inj hpart
    rw [String.toList_append, String.toList_append, List.append_assoc]
    exact List.prefix_append _ _

theorem getLast_isSuffix {parts : List String} {text part : String} (h : Strung parts text)
    (hpart : parts.getLast? = some part) : part.toList <:+ text.toList := by
  induction h with
  | single last =>
    obtain rfl := Option.some.inj hpart
    exact List.suffix_rfl
  | cons first gap h ih =>
    rw [List.getLast?_cons] at hpart
    cases h with
    | single last =>
      obtain rfl := Option.some.inj hpart
      rw [String.toList_append]
      exact List.suffix_append _ _
    | cons second gap' h =>
      rw [String.toList_append]
      refine (ih ?_).trans (List.suffix_append _ _)
      rw [List.getLast?_cons] at hpart ⊢
      exact hpart

end Strung

namespace Snapshot

variable {s : Snapshot}

theorem exists_text (h : Arranged s.source [] s.nodes) {n : Nat} (hn : n < s.nodes.size) :
    ∃ cs, slice? s.source (s.get n).startByte (s.get n).endByte = some cs
      ∧ s.text n = String.ofList cs := by
  obtain ⟨cs, hcs⟩ := (h.extent n hn).exists_slice
  have hcs : slice? s.source (s.get n).startByte (s.get n).endByte = some cs := hcs
  refine ⟨cs, hcs, ?_⟩
  unfold text slice
  rw [hcs]

/-- The text from the first to the last of nodes that follow each other strings their texts
together. -/
theorem strung_text (h : Arranged s.source [] s.nodes) :
    ∀ (run : List Nat) {first last : Nat}, (∀ n ∈ run, n < s.nodes.size) →
      run.Pairwise (fun a b => (s.get a).endByte ≤ (s.get b).startByte) →
      run.head? = some first → run.getLast? = some last →
      ∃ cs, slice? s.source (s.get first).startByte (s.get last).endByte = some cs
        ∧ Strung (run.map s.text) (String.ofList cs)
  | [], first, last, _, _, hfirst, _ => by simp at hfirst
  | [n], first, last, hlt, _, hfirst, hlast => by
    obtain rfl := Option.some.inj hfirst
    obtain rfl := Option.some.inj hlast
    obtain ⟨cs, hcs, htext⟩ := exists_text h (hlt n List.mem_cons_self)
    refine ⟨cs, hcs, ?_⟩
    rw [List.map_singleton, htext]
    exact .single _
  | n :: m :: run, first, last, hlt, hpair, hfirst, hlast => by
    obtain rfl := Option.some.inj hfirst
    have hn := hlt n List.mem_cons_self
    have hm := hlt m (by simp)
    obtain ⟨hhead, htail⟩ := List.pairwise_cons.1 hpair
    rw [List.getLast?_cons_cons] at hlast
    obtain ⟨cs, hcs, htext⟩ := exists_text h hn
    obtain ⟨gap, hgap⟩ := (h.extent n hn).exists_gap (h.extent m hm) (hhead m List.mem_cons_self)
    obtain ⟨cs', hcs', hstrung⟩ := strung_text h (m :: run)
      (fun k hk => hlt k (List.mem_cons_of_mem n hk)) htail rfl hlast
    refine ⟨cs ++ gap ++ cs', slice?_append (slice?_append hcs hgap) hcs', ?_⟩
    rw [List.map_cons, htext, String.ofList_append, String.ofList_append]
    exact .cons _ _ hstrung

theorem ordered_of_selects (h : Arranged s.source [] s.nodes) (hl : Linked [] s.nodes)
    {p q : Position} {r : Region Nat} (hr : s.tree.Selects p q r) :
    r.nodes ≠ [] ∧ (∀ n ∈ r.nodes, n < s.nodes.size)
      ∧ r.nodes.Pairwise (fun a b => (s.get a).endByte ≤ (s.get b).startByte) := by
  rcases hr.nodes_eq with ⟨n, hn, hone⟩ | ⟨hne, n, hsub⟩
  · rw [hone]
    exact ⟨List.cons_ne_nil n [], fun m hm => List.mem_singleton.1 hm ▸ hn,
      List.pairwise_singleton _ _⟩
  · exact ⟨hne, fun m hm => hl.child_lt_size (hsub.subset hm), (h.ordered n).sublist hsub⟩

/-- The text of a selection is a slice of the source, whatever the positions are. -/
theorem exists_regionText (h : Arranged s.source [] s.nodes) (hl : Linked [] s.nodes)
    {p q : Position} {r : Region Nat} (hr : s.tree.Selects p q r) :
    ∃ first last cs, r.nodes.head? = some first ∧ r.nodes.getLast? = some last
      ∧ first < s.nodes.size ∧ last < s.nodes.size
      ∧ slice? s.source (s.get first).startByte (s.get last).endByte = some cs
      ∧ s.regionText r = String.ofList cs ∧ Strung (r.nodes.map s.text) (String.ofList cs) := by
  obtain ⟨hne, hlt, hordered⟩ := ordered_of_selects h hl hr
  have hfirst := List.head?_eq_some_head hne
  have hlast := List.getLast?_eq_some_getLast hne
  obtain ⟨cs, hcs, hstrung⟩ := strung_text h r.nodes hlt hordered hfirst hlast
  refine ⟨_, _, cs, hfirst, hlast, hlt _ (List.head_mem hne), hlt _ (List.getLast_mem hne), hcs,
    ?_, hstrung⟩
  unfold regionText slice
  simp only [hfirst, hlast, hcs]

variable {parser : Parser} {grammar : Grammar} {options : ParseOptions} {source : String}

theorem regionReportAt_covers (hparse : parse parser grammar options source = .ok s)
    (hplaces : parser.Places grammar.name source) (hsize : source.utf8ByteSize < UInt32.size - 1) :
    (∀ (before after before' after' : List Char) (c c' : Char),
      source.toList = before ++ c :: after → source.toList = before' ++ c' :: after' →
      byteLength before ≤ byteLength before' →
      (s.get 0).startByte ≤ byteLength before → byteLength before' < (s.get 0).endByte →
      ∃ report first last cs,
        s.regionReportAt (positionAfter before) (positionAfter before') = .ok report
        ∧ s.regionReportAt (positionAfter before') (positionAfter before) = .ok report
        ∧ report.region.nodes.head? = some first ∧ report.region.nodes.getLast? = some last
        ∧ report.nodes = report.region.nodes.map s.nodeReport
        ∧ slice? source (s.get first).startByte (s.get last).endByte = some cs
        ∧ report.text = String.ofList cs
        ∧ (s.get first).startByte ≤ byteLength before
        ∧ byteLength (before' ++ [c']) ≤ (s.get last).endByte
        ∧ Strung (report.nodes.map (·.text)) report.text
        ∧ (s.text first).toList <+: report.text.toList
        ∧ (s.text last).toList <:+ report.text.toList
        ∧ (report.region.kind = "node" → ∃ node, report.nodes = [node] ∧ node.text = report.text))
    ∧ (∀ p q, ∃ report first last cs, s.regionReportAt p q = .ok report
        ∧ report.region.nodes.head? = some first ∧ report.region.nodes.getLast? = some last
        ∧ slice? source (s.get first).startByte (s.get last).endByte = some cs
        ∧ report.text = String.ofList cs)
    ∧ ∀ n < s.nodes.size, ∃ cs, slice? source (s.get n).startByte (s.get n).endByte = some cs
        ∧ s.text n = String.ofList cs := by
  obtain rfl := source_of_parse hparse
  have h := numbered_of_parse hparse
  have hs := nested_of_parse hparse hplaces hsize
  have hl := linked_of_parse hparse
  have ha := arranged_of_parse hparse hplaces hsize
  have hfits := fits_of_size hsize
  refine ⟨fun before after before' after' c c' hc hc' hle hroot hroot' => ?_, fun p q => ?_,
    fun n hn => exists_text ha hn⟩
  · have hpre : before ++ [c] <+: s.source.toList := ⟨after, by simp [hc]⟩
    have hpre' : before' ++ [c'] <+: s.source.toList := ⟨after', by simp [hc']⟩
    have hbefore' := (List.prefix_append before' [c']).trans hpre'
    have hpos : positionAfter before ≤ positionAfter before' :=
      positionAfter_mono (hfits.of_isPrefix hbefore')
        (prefix_of_byteLength_le ((List.prefix_append before [c]).trans hpre) hbefore' hle)
    have hspans : s.tree.Spans (positionAfter before) (positionAfter before') 0 :=
      ⟨((ha.extent 0 hl.size_pos).mem_iff hfits hpre).2 ⟨hroot, hle.trans_lt hroot'⟩,
        ((ha.extent 0 hl.size_pos).mem_iff hfits hpre').2 ⟨hroot.trans hle, hroot'⟩⟩
    obtain ⟨r, hr, hsel⟩ :=
      Tree.regionAt_selects h hs (positionAfter before) (positionAfter before')
    obtain ⟨r', hr', hsel'⟩ :=
      Tree.regionAt_selects h hs (positionAfter before') (positionAfter before)
    obtain rfl := hsel'.symm.unique h hs hsel
    obtain ⟨first, last, cs, hfirst, hlast, hfirst_lt, hlast_lt, hcs, htext, hstrung⟩ :=
      exists_regionText ha hl hsel
    obtain ⟨hstart, hstop⟩ := hsel.ends hpos h.root_lt hspans hfirst hlast
    have hbegins := ((ha.extent first hfirst_lt).mem_iff hfits hpre).1 hstart
    have hends := ((ha.extent last hlast_lt).mem_iff hfits hpre').1 hstop
    refine ⟨⟨r', r'.nodes.map s.nodeReport, s.regionText r'⟩, first, last, cs, ?_, ?_, hfirst,
      hlast, rfl, hcs, htext, hbegins.1, (ha.extent last hlast_lt).concat_le hpre' hends.2,
      ?_, ?_, ?_, ?_⟩
    · simp only [regionReportAt, hr]
    · simp only [regionReportAt, hr']
    · rw [htext, List.map_map]
      exact hstrung
    · rw [htext]
      exact hstrung.head_isPrefix (by rw [List.head?_map, hfirst, Option.map_some])
    · rw [htext]
      exact hstrung.getLast_isSuffix (by rw [List.getLast?_map, hlast, Option.map_some])
    · intro hkind
      cases r' with
      | node n => exact ⟨s.nodeReport n, rfl, rfl⟩
      | siblings run => exact absurd hkind (by simp [Region.kind])
  · obtain ⟨r, hr, hsel⟩ := Tree.regionAt_selects h hs p q
    obtain ⟨first, last, cs, hfirst, hlast, -, -, hcs, htext, -⟩ := exists_regionText ha hl hsel
    refine ⟨⟨r, r.nodes.map s.nodeReport, s.regionText r⟩, first, last, cs, ?_, hfirst, hlast, hcs,
      htext⟩
    simp only [regionReportAt, hr]

/-- From the `y` back to the `é`. -/
theorem regionReportAt_twoStatements :
    ∃ report, twoStatementsSnapshot.regionReportAt ⟨2, 1⟩ ⟨1, 3⟩ = .ok report
      ∧ report.text = "x=é\ny" ∧ Strung ["x=é", "y"] report.text := by
  have hcovers := regionReportAt_covers parse_twoStatements places_twoStatements (by decide)
  obtain ⟨report, first, last, cs, -, hr, -, -, -, -, -, -, -, hstrung, -⟩ :=
    hcovers.1 ['x', '='] ['\n', 'y'] ['x', '=', 'é', '\n'] [] 'é' 'y' (by decide) (by decide)
      (by decide) (by decide +kernel) (by decide +kernel)
  have hreport : twoStatementsSnapshot.regionReportAt ⟨2, 1⟩ ⟨1, 3⟩ = .ok
      ⟨.siblings [1, 5], [⟨"expression_statement", ⟨⟨1, 1⟩, ⟨1, 3⟩⟩, "x=é"⟩,
        ⟨"expression_statement", ⟨⟨2, 1⟩, ⟨2, 1⟩⟩, "y"⟩], "x=é\ny"⟩ := by
    decide +kernel
  have hsame : twoStatementsSnapshot.regionReportAt ⟨2, 1⟩ ⟨1, 3⟩ = .ok report := hr
  rw [hreport, Except.ok.injEq] at hsame
  subst hsame
  exact ⟨_, hreport, rfl, hstrung⟩

end Snapshot

end SyntaxQuery
