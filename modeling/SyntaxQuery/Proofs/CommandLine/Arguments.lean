import Mathlib.Data.List.Nodup
import SyntaxQuery.CommandLine.Arguments
import SyntaxQuery.Proofs.Position.Written

/-!
# What an argument list spells

An argument list holds options in any order, the value of one behind an equals sign or as the next
argument, and operands among them (`Spelled`). Reading takes the arguments one after another, and
what has been taken are at each time the options and operands met so far (`Tracks`). So of a list
whose options are all accepted, none of them twice, exactly these are taken (`exists_takeAll`,
`exists_takeProgram`).
-/

namespace SyntaxQuery.CommandLine

section Forms

/-- It does not begin with a dash, or is nothing but a dash. -/
def Plain (s : String) : Prop := ∀ cs, s.toList = '-' :: cs → cs = []

/-- What can be the name of an option. -/
def IsName (name : String) : Prop := name ≠ "" ∧ '=' ∉ name.toList

instance : DecidablePred IsName := fun name =>
  inferInstanceAs (Decidable (name ≠ "" ∧ '=' ∉ name.toList))

variable {name s : String}

theorem form_of_plain (h : Plain s) : form s = .plain := by
  unfold form
  split
  · rename_i hs
    exact absurd (h _ hs) (by simp)
  · rename_i hs
    exact absurd (h _ hs) (by simp)
  · rename_i hs
    exact absurd (h _ hs) (by simp)
  · rfl

/-- After two dashes an option follows, unless nothing does. -/
theorem form_dashes (cs : List Char) (h : cs ≠ []) (hs : s.toList = '-' :: '-' :: cs) :
    form s = match cs.span (· ≠ '=') with
      | (name, []) => .long (String.ofList name) none
      | (name, _ :: value) => .long (String.ofList name) (some (String.ofList value)) := by
  rw [form, hs]
  split
  · simp_all
  · rename_i hcs
    obtain rfl : cs = _ := by simpa using hcs
    rfl
  · rename_i hnot hcs
    exact absurd (List.cons.inj (List.cons.inj hcs).2).1.symm hnot
  · simp_all

theorem form_long (h : IsName name) : form ("--" ++ name) = .long name none := by
  rw [form_dashes name.toList (by simpa using h.1) (by simp), Text.span_of_not_mem h.2]
  simp

theorem form_joined (h : IsName name) (value : String) :
    form ("--" ++ name ++ "=" ++ value) = .long name (some value) := by
  rw [form_dashes (name.toList ++ '=' :: value.toList) (by simp) (by simp),
    Text.span_append_cons h.2]
  simp

end Forms

/-- The arguments that spell one option. -/
inductive OptionSpelled : List String → String × Option String → Prop
  | switch (name : String) : OptionSpelled ["--" ++ name] (name, none)
  | spaced (name : String) {value : String} (hvalue : Plain value) :
      OptionSpelled ["--" ++ name, value] (name, some value)
  | joined (name value : String) : OptionSpelled ["--" ++ name ++ "=" ++ value] (name, some value)

/-- The arguments are these options, each with its value if it has one, and these operands. -/
inductive Spelled : List String → List (String × Option String) → List String → Prop
  | nil : Spelled [] [] []
  | option {front o arguments os xs} (ho : OptionSpelled front o) (h : Spelled arguments os xs) :
      Spelled (front ++ arguments) (o :: os) xs
  | operand {x arguments os xs} (hx : Plain x) (h : Spelled arguments os xs) :
      Spelled (x :: arguments) os (x :: xs)

namespace Accepted

/-- The value of an option, if it is accepted and its text can be read. -/
def value? (accepted : Accepted) (name s : String) : Option Value :=
  (accepted.valued.lookup name).bind fun kind => kind.read? s

/-- The option is accepted. -/
def Takes (accepted : Accepted) : String × Option String → Prop
  | (name, none) => name ∈ accepted.switches
  | (name, some s) => name ∉ accepted.switches ∧ (accepted.value? name s).isSome

/-- The names of all that is accepted can be told from values. -/
def Named (accepted : Accepted) : Prop :=
  (∀ name ∈ accepted.switches, IsName name) ∧ ∀ name ∈ accepted.valued.map (·.1), IsName name

instance : DecidablePred Named := fun accepted =>
  inferInstanceAs (Decidable ((∀ name ∈ accepted.switches, IsName name) ∧ _))

theorem exists_kind {accepted : Accepted} {name s : String} {v : Value}
    (h : accepted.value? name s = some v) :
    ∃ kind, accepted.valued.lookup name = some kind ∧ kind.read? s = some v :=
  Option.bind_eq_some_iff.1 h

theorem Takes.isName {accepted : Accepted} {o : String × Option String}
    (hnamed : accepted.Named) (h : accepted.Takes o) : IsName o.1 := by
  obtain ⟨name, _ | s⟩ := o
  · exact hnamed.1 name h
  · obtain ⟨v, hv⟩ := Option.isSome_iff_exists.1 h.2
    obtain ⟨kind, hkind, -⟩ := exists_kind hv
    obtain ⟨l, l', hl, -⟩ := List.lookup_eq_some_iff.1 hkind
    exact hnamed.2 name (by simp [hl])

end Accepted

/-- What has been taken are these options and these operands. -/
structure Tracks (accepted : Accepted) (t : Taken) (os : List (String × Option String))
    (vs : List Value) : Prop where
  switches : ∀ name, name ∈ t.switches ↔ (name, none) ∈ os
  values : ∀ name v, t.value? name = some v
    ↔ ∃ s, (name, some s) ∈ os ∧ accepted.value? name s = some v
  operands : t.operands.reverse = vs

theorem tracks_none (accepted : Accepted) : Tracks accepted .none [] [] :=
  ⟨by simp [Taken.none], by simp [Taken.none, Taken.value?], rfl⟩

section Options

variable {accepted : Accepted} {t : Taken} {os done : List (String × Option String)}
  {vs : List Value} {name : String}

theorem Tracks.value?_eq_none (ht : Tracks accepted t done vs) (h : ∀ s, (name, some s) ∉ done) :
    t.value? name = none := by
  rcases hv : t.value? name with _ | v
  · rfl
  · obtain ⟨s, hs, -⟩ := (ht.values name v).1 hv
    exact absurd hs (h s)

theorem takeLong_switch (ht : Tracks accepted t done vs) (h : accepted.Takes (name, none))
    (hfresh : name ∉ done.map (·.1)) :
    ∃ t', (∀ argument next, takeLong accepted t argument name none next = .ok (t', next))
      ∧ Tracks accepted t' ((name, none) :: done) vs := by
  have hnew : name ∉ t.switches := fun hmem =>
    hfresh (List.mem_map_of_mem ((ht.switches name).1 hmem))
  have hname : name ∈ accepted.switches := h
  refine ⟨{ t with switches := name :: t.switches }, fun _ _ => ?_, ?_, ?_, ht.operands⟩
  · simp [takeLong, hname, hnew]
  · simp [ht.switches]
  · intro name' v
    rw [show Taken.value? { t with switches := name :: t.switches } name' = t.value? name' from rfl,
      ht.values]
    simp

/-- The value of an option is taken from behind the equals sign or from the next argument. -/
theorem takeLong_value {s : String} (ht : Tracks accepted t done vs)
    (h : accepted.Takes (name, some s)) (hfresh : name ∉ done.map (·.1)) :
    ∃ t', (∀ argument next, takeLong accepted t argument name (some s) next = .ok (t', next))
      ∧ (Plain s → ∀ argument next,
          takeLong accepted t argument name none (s :: next) = .ok (t', next))
      ∧ Tracks accepted t' ((name, some s) :: done) vs := by
  obtain ⟨hname, hsome⟩ := h
  obtain ⟨v, hv⟩ := Option.isSome_iff_exists.1 hsome
  obtain ⟨kind, hkind, hread⟩ := Accepted.exists_kind hv
  have hold : ∀ s', (name, some s') ∉ done := fun s' hs' => hfresh (List.mem_map_of_mem hs')
  have hnew := ht.value?_eq_none hold
  refine ⟨{ t with values := (name, v) :: t.values }, fun _ _ => ?_, fun hs _ _ => ?_, ?_, ?_,
    ht.operands⟩
  · simp [takeLong, hname, hkind, hnew, takeValue, hread, Except.map]
  · simp [takeLong, hname, hkind, hnew, form_of_plain hs, takeValue, hread, Except.map]
  · simp [ht.switches]
  · intro name' w
    by_cases hsame : name' = name
    · subst hsame
      simp [Taken.value?, hold, hv]
    · have hvalue : Taken.value? { t with values := (name, v) :: t.values } name'
          = t.value? name' := by simp [Taken.value?, Ne.symm hsame]
      rw [hvalue, ht.values]
      simp [hsame]

end Options

section Operands

variable {accepted : Accepted} {t : Taken} {done : List (String × Option String)}
  {vs ws : List Value} {kinds : List ValueKind} {x : String} {xs : List String}

/-- The values of operands, each read as its kind. -/
def operandValues? : List ValueKind → List String → Option (List Value)
  | _, [] => some []
  | [], _ :: _ => none
  | kind :: kinds, x :: xs => (kind.read? x).bind fun v => (operandValues? kinds xs).map (v :: ·)

theorem exists_of_operandValues? (h : operandValues? kinds (x :: xs) = some ws) :
    ∃ kind kinds' v ws', kinds = kind :: kinds' ∧ kind.read? x = some v
      ∧ operandValues? kinds' xs = some ws' ∧ ws = v :: ws' := by
  rcases kinds with _ | ⟨kind, kinds⟩
  · simp [operandValues?] at h
  · obtain ⟨v, hv, hmap⟩ := Option.bind_eq_some_iff.1 h
    obtain ⟨ws', hws', rfl⟩ := Option.map_eq_some_iff.1 hmap
    exact ⟨kind, kinds, v, ws', rfl, hv, hws', rfl⟩

/-- The next operand is read as the next kind, and the others as the kinds after that. -/
theorem exists_takeOperand (ht : Tracks accepted t done vs)
    (h : operandValues? (accepted.operands.drop vs.length) (x :: xs) = some ws) :
    ∃ t' v ws', takeOperand accepted t x = .ok t' ∧ Tracks accepted t' done (vs ++ [v])
      ∧ operandValues? (accepted.operands.drop (vs ++ [v]).length) xs = some ws'
      ∧ ws = v :: ws' := by
  obtain ⟨kind, kinds', v, ws', hkinds, hread, hrest, rfl⟩ := exists_of_operandValues? h
  have hlength : t.operands.length = vs.length := by rw [← ht.operands, List.length_reverse]
  have hkind : accepted.operands[t.operands.length]? = some kind := by
    rw [hlength, ← List.head?_drop, hkinds, List.head?_cons]
  have hdrop : accepted.operands.drop (vs ++ [v]).length = kinds' := by
    rw [List.length_append, List.length_singleton, ← List.tail_drop, hkinds, List.tail_cons]
  refine ⟨{ t with operands := v :: t.operands }, v, ws', ?_,
    ⟨ht.switches, ht.values, by simp [ht.operands]⟩, by rw [hdrop, hrest], rfl⟩
  simp [takeOperand, hkind, hread]

end Operands

section Runs

variable {β : Type} {accepted : Accepted} {arguments : List String}
  {os done : List (String × Option String)} {xs : List String}

/-- A reader that takes the next option or operand and then reads what is left. -/
structure Follows (accepted : Accepted) (run : Taken → List String → β) : Prop where
  long : ∀ {t t' a name value next rest}, form a = .long name value →
    takeLong accepted t a name value next = .ok (t', rest) → run t (a :: next) = run t' rest
  plain : ∀ {t t' a next}, Plain a → takeOperand accepted t a = .ok t' →
    run t (a :: next) = run t' next

theorem follows_takeAll (accepted : Accepted) : Follows accepted (takeAll accepted) where
  long ha h := by
    rw [takeAll, ha]
    simp only
    split <;> simp_all
  plain ha h := by
    rw [takeAll, form_of_plain ha]
    simp only [h]

/-- The program itself has no operands. -/
theorem follows_takeProgram : Follows .program takeProgram where
  long {t t' a name value next rest} ha h := by
    have hversion : name ≠ "version" := by
      have hlookup : Accepted.program.valued.lookup "version" = none := rfl
      rintro rfl
      simp [takeLong, hlookup, show "version" ∉ Accepted.program.switches by decide] at h
    rw [takeProgram.eq_def]
    simp only [ha, hversion, false_and, if_false]
    split <;> simp_all
  plain _ h := by
    simp [takeOperand, Accepted.program] at h

theorem fresh_of_nodup {o : String × Option String}
    (h : ((os.reverse ++ o :: done).map (·.1)).Nodup) : o.1 ∉ done.map (·.1) := by
  rw [List.map_append, List.map_cons] at h
  exact (List.nodup_cons.1 (List.nodup_append.1 h).2.1).1

/-- However an option is spelled, it is taken and reading goes on behind it. -/
theorem Follows.exists_option {run : Taken → List String → β} (hrun : Follows accepted run)
    (hnamed : accepted.Named) {front : List String} {o : String × Option String}
    (ho : OptionSpelled front o) {t : Taken} {vs : List Value} (ht : Tracks accepted t done vs)
    (htakes : accepted.Takes o) (hfresh : o.1 ∉ done.map (·.1)) :
    ∃ t', (∀ rest, run t (front ++ rest) = run t' rest) ∧ Tracks accepted t' (o :: done) vs := by
  have hname := htakes.isName hnamed
  cases ho with
  | switch name =>
    obtain ⟨t', htake, ht'⟩ := takeLong_switch ht htakes hfresh
    exact ⟨t', fun rest => hrun.long (form_long hname) (htake _ _), ht'⟩
  | spaced name hvalue =>
    obtain ⟨t', -, htake, ht'⟩ := takeLong_value ht htakes hfresh
    exact ⟨t', fun rest => hrun.long (form_long hname) (htake hvalue _ _), ht'⟩
  | joined name value =>
    obtain ⟨t', htake, -, ht'⟩ := takeLong_value ht htakes hfresh
    exact ⟨t', fun rest => hrun.long (form_joined hname value) (htake _ _), ht'⟩

/-- All that the arguments spell is taken, and reading goes on with what follows them; there the
operands `ys` may stand. -/
theorem exists_run {run : Taken → List String → β} (hrun : Follows accepted run)
    (hnamed : accepted.Named) (ys : List String) (h : Spelled arguments os xs) :
    ∀ {t : Taken} {done vs ws}, Tracks accepted t done vs →
      ((os.reverse ++ done).map (·.1)).Nodup → (∀ o ∈ os, accepted.Takes o) →
      operandValues? (accepted.operands.drop vs.length) (xs ++ ys) = some ws →
      ∃ t' ws' ws'', (∀ rest, run t (arguments ++ rest) = run t' rest)
        ∧ Tracks accepted t' (os.reverse ++ done) (vs ++ ws')
        ∧ operandValues? (accepted.operands.drop (vs ++ ws').length) ys = some ws''
        ∧ ws = ws' ++ ws'' := by
  induction h with
  | nil =>
    intro t done vs ws ht _ _ hws
    exact ⟨t, [], ws, fun _ => rfl, by simpa using ht, by simpa using hws, rfl⟩
  | @option front o arguments os xs ho h ih =>
    intro t done vs ws ht hnodup htakes hws
    rw [List.forall_mem_cons] at htakes
    rw [List.reverse_cons, List.append_assoc, List.singleton_append] at hnodup ⊢
    obtain ⟨t₁, hstep, ht₁⟩ := hrun.exists_option hnamed ho ht htakes.1 (fresh_of_nodup hnodup)
    obtain ⟨t', ws', ws'', hrest, ht'⟩ := ih ht₁ hnodup htakes.2 hws
    refine ⟨t', ws', ws'', fun rest => ?_, ht'⟩
    rw [List.append_assoc, hstep, hrest]
  | @operand x arguments os xs hx h ih =>
    intro t done vs ws ht hnodup htakes hws
    obtain ⟨t₁, v, ws₁, htake, ht₁, hws₁, rfl⟩ := exists_takeOperand ht hws
    obtain ⟨t', ws', ws'', hrest, ht', hws', rfl⟩ := ih ht₁ hnodup htakes hws₁
    exact ⟨t', v :: ws', ws'', fun rest => (hrun.plain hx htake).trans (hrest rest),
      by simpa using ht', by simpa using hws', rfl⟩

theorem exists_run_none {run : Taken → List String → β} (hrun : Follows accepted run)
    (hnamed : accepted.Named) (ys : List String) (h : Spelled arguments os xs)
    (hnodup : (os.map (·.1)).Nodup) (htakes : ∀ o ∈ os, accepted.Takes o) {ws : List Value}
    (hws : operandValues? accepted.operands (xs ++ ys) = some ws) :
    ∃ t ws' ws'', (∀ rest, run .none (arguments ++ rest) = run t rest)
      ∧ Tracks accepted t os.reverse ws'
      ∧ operandValues? (accepted.operands.drop ws'.length) ys = some ws'' ∧ ws = ws' ++ ws'' := by
  have hreverse : ((os.reverse ++ []).map Prod.fst).Nodup := by
    simpa [List.nodup_reverse] using hnodup
  simpa using exists_run hrun hnamed ys h (tracks_none _) hreverse htakes hws

theorem exists_takeProgram {before : List String} (h : Spelled before os [])
    (hnodup : (os.map (·.1)).Nodup) (htakes : ∀ o ∈ os, Accepted.program.Takes o) {name : String}
    (hname : Plain name) :
    ∃ t, (∀ rest, takeProgram .none (before ++ name :: rest) = .ok (t, some (name, rest)))
      ∧ Tracks .program t os.reverse [] := by
  obtain ⟨t, ws', ws'', hrest, ht, -, hws⟩ := exists_run_none follows_takeProgram (by decide) [] h
    hnodup htakes rfl
  obtain ⟨rfl, rfl⟩ := List.append_eq_nil_iff.1 hws.symm
  refine ⟨t, fun rest => ?_, ht⟩
  rw [hrest, takeProgram.eq_def]
  simp only [form_of_plain hname]

/-- What stands behind two dashes alone are operands. -/
theorem exists_foldlM : ∀ {ys : List String} {t : Taken} {vs ws}, Tracks accepted t done vs →
    operandValues? (accepted.operands.drop vs.length) ys = some ws →
    ∃ t', ys.foldlM (takeOperand accepted) t = .ok t' ∧ Tracks accepted t' done (vs ++ ws)
  | [], t, vs, ws, ht, hws => by
    obtain rfl : [] = ws := by simpa [operandValues?] using hws
    exact ⟨t, rfl, by simpa using ht⟩
  | y :: ys, t, vs, ws, ht, hws => by
    obtain ⟨t₁, v, ws', htake, ht₁, hws', rfl⟩ := exists_takeOperand ht hws
    obtain ⟨t', hfold, ht'⟩ := exists_foldlM ht₁ hws'
    refine ⟨t', ?_, by simpa using ht'⟩
    rw [List.foldlM_cons, htake]
    exact hfold

theorem exists_takeAll {after ending ys : List String} {ws : List Value} (hnamed : accepted.Named)
    (h : Spelled after os xs) (hending : ending = [] ∧ ys = [] ∨ ending = "--" :: ys)
    (hnodup : (os.map (·.1)).Nodup) (htakes : ∀ o ∈ os, accepted.Takes o)
    (hws : operandValues? accepted.operands (xs ++ ys) = some ws) :
    ∃ t, takeAll accepted .none (after ++ ending) = .ok t ∧ Tracks accepted t os.reverse ws := by
  obtain ⟨t, ws', ws'', hrest, ht, hys, rfl⟩ := exists_run_none (follows_takeAll accepted) hnamed ys
    h hnodup htakes hws
  rw [hrest]
  rcases hending with ⟨rfl, rfl⟩ | rfl
  · obtain rfl : [] = ws'' := by simpa [operandValues?] using hys
    exact ⟨t, by rw [takeAll], by simpa using ht⟩
  · obtain ⟨t', hfold, ht'⟩ := exists_foldlM ht hys
    have hform : form "--" = .escape := rfl
    refine ⟨t', ?_, by simpa using ht'⟩
    rw [takeAll, hform]
    exact hfold

end Runs

section Texts

variable {accepted : Accepted} {t : Taken} {os : List (String × Option String)} {vs : List Value}
  {name : String}

theorem Tracks.text?_eq_some_iff (ht : Tracks accepted t os vs)
    (hkind : accepted.valued.lookup name = some .text) {s : String} :
    t.text? name = some s ↔ (name, some s) ∈ os := by
  have hvalue : t.text? name = some s ↔ t.value? name = some (.text s) := by
    unfold Taken.text?
    split <;> simp_all
  rw [hvalue, ht.values]
  simp [Accepted.value?, hkind, ValueKind.read?]

theorem Tracks.text?_eq_none (ht : Tracks accepted t os vs) (h : ∀ s, (name, some s) ∉ os) :
    t.text? name = none := by
  simp [Taken.text?, ht.value?_eq_none h]

theorem read_command {arguments rest : List String} {before after : Taken} {command : Command}
    (hname : name ≠ "help")
    (hbefore : takeProgram .none arguments = .ok (before, some (name, rest)))
    (haccepted : Accepted.ofName? name = some accepted)
    (hafter : takeAll accepted .none rest = .ok after)
    (hcommand : commandOf name after = .ok command) :
    read arguments = .ok (.run (optionsOf before after) command) := by
  simp only [read, hbefore, haccepted, hafter, hcommand]
  rfl

end Texts

end SyntaxQuery.CommandLine
