import LispForms.Proofs.NormalForm
import LispForms.Proofs.OneLine

/-! What a run prints of the files that it reads. Each file is a text of its own, of which it prints
what it would print if nothing had been read before it: a line for each form, until a file is
misread. -/

namespace LispForms

/-- The readings up to the first one with a fault, and with it. -/
def upToFault {W : Type} : List (Reading W) → List (Reading W)
  | [] => []
  | r :: rs => if r.fault.isSome then [r] else r :: upToFault rs

theorem mem_of_mem_upToFault {W : Type} {r : Reading W} {rs : List (Reading W)}
    (h : r ∈ upToFault rs) : r ∈ rs := by
  induction rs with
  | nil => exact h
  | cons r' rs ih =>
    unfold upToFault at h
    split at h
    · exact List.mem_singleton.1 h ▸ List.mem_cons_self
    · exact (List.mem_cons.1 h).elim (· ▸ List.mem_cons_self) (List.mem_cons_of_mem r' ∘ ih)

namespace Command

namespace Surroundings

/-- The text under a name, if there is one and it can be decoded. -/
def source? (around : Surroundings) (name input : String) : Option Source :=
  if name = inputName then some (around.inputSource input)
  else if name.toList.contains '\x00' then none
  else match around.file name with
    | .none _ => none
    | .bytes content =>
      if (Source.ofBytes name content).text.ending = .complete then some (.ofBytes name content)
      else none

/-- The texts under the names in order, if there is one under each. The standard input can be read
once; then it is empty. -/
def sources? (around : Surroundings) : List String → String → Option (List Source)
  | [], _ => some []
  | name :: names, input => do
    let source ← around.source? name input
    let sources ← around.sources? names (if name = inputName then "" else input)
    return source :: sources

variable {around : Surroundings} {name input : String} {names : List String} {source : Source}
  {sources : List Source}

/-- The text under a name is the standard input or the content of a file. -/
theorem source?_eq_some (h : around.source? name input = some source) :
    name = inputName ∧ source = around.inputSource input ∨
      name ≠ inputName ∧ name.toList.contains '\x00' = false ∧ ∃ content,
        around.file name = .bytes content ∧ source = .ofBytes name content ∧
          source.text.ending = .complete := by
  unfold source? at h
  split at h
  next hname => exact .inl ⟨hname, (Option.some.inj h).symm⟩
  next hname =>
    split at h
    next => cases h
    next hnull =>
      split at h
      next => cases h
      next content hfile =>
        split at h
        next hcomplete =>
          obtain rfl := Option.some.inj h
          exact .inr ⟨hname, Bool.eq_false_iff.2 hnull, content, hfile, rfl, hcomplete⟩
        next => cases h

theorem sources?_cons_eq_some (h : around.sources? (name :: names) input = some sources) :
    ∃ source rest, around.source? name input = some source ∧
      around.sources? names (if name = inputName then "" else input) = some rest ∧
      sources = source :: rest := by
  simp only [sources?, Option.bind_eq_bind, Option.bind_eq_some_iff] at h
  obtain ⟨source, hsource, rest, hrest, he⟩ := h
  exact ⟨source, rest, hsource, hrest, (Option.some.inj he).symm⟩

theorem complete_of_sources? (h : around.sources? names input = some sources) :
    ∀ source ∈ sources, source.text.ending = .complete := by
  induction names generalizing input sources with
  | nil =>
    cases h
    simp
  | cons name names ih =>
    obtain ⟨source, rest, hsource, hrest, rfl⟩ := sources?_cons_eq_some h
    refine List.forall_mem_cons.2 ⟨?_, ih hrest⟩
    rcases source?_eq_some hsource with ⟨-, rfl⟩ | ⟨-, -, -, -, -, hcomplete⟩
    · rfl
    · exact hcomplete

end Surroundings

/-! ### The texts one after the other -/

variable {W : Type} {around : Surroundings} {name input : String} {names : List String}
  {source : Source} {sources : List Source}

theorem readTexts_cons (sv : Services W) (opts : Options)
    (h : around.source? name input = some source) (names : List String) (w : W) :
    readTexts sv opts around (name :: names) input w =
      let r := LispForms.read sv opts source w
      match r.fault with
      | some f => (r.forms, some (.fault f), r.world)
      | none =>
        let input := if name = inputName then "" else input
        let (more, fault, w) := readTexts sv opts around names input r.world
        (r.forms ++ more, fault, w) := by
  rw [readTexts]
  rcases Surroundings.source?_eq_some h with ⟨rfl, rfl⟩ | ⟨hname, hnull, content, hfile, rfl, -⟩
  · simp only [↓reduceIte]
    cases (LispForms.read sv opts (around.inputSource input) w).fault <;> rfl
  · simp only [hname, ↓reduceIte, File.read, hnull, hfile, Bool.false_eq_true]
    cases (LispForms.read sv opts (.ofBytes name content) w).fault <;> rfl

/-- The texts are read like each of them in a store of its own, up to the first fault. -/
theorem readTexts_print (env : Host.Environment) (opts : Options) {s t : Store} (hs : s.Running)
    (ht : t.Running) (h : around.sources? names input = some sources) :
    let r := readTexts (.standard env) opts around names input s
    let readings := sources.map fun source => LispForms.read (.standard env) opts source t
    r.1.map (Form.print .standard) =
        ((upToFault readings).flatMap Reading.forms).map (Form.print .standard) ∧
      r.2.1 = (readings.findSome? Reading.fault).map .fault := by
  induction names generalizing input sources s with
  | nil =>
    cases h
    exact ⟨rfl, rfl⟩
  | cons name names ih =>
    obtain ⟨source, rest, hsource, hrest, rfl⟩ := Surroundings.sources?_cons_eq_some h
    obtain ⟨hfault, hprint⟩ := read_alike hs ht env opts source .standard
    have hnext := ih (hs.read env opts source) hrest
    intro r readings
    have hr : r = _ := readTexts_cons (.standard env) opts hsource names s
    rw [hr]
    simp only [readings, List.map_cons, List.findSome?_cons, upToFault, ← hfault]
    cases (LispForms.read (.standard env) opts source s).fault with
    | some f => simp [hprint]
    | none => simp [hprint, hnext.1, hnext.2]

/-! ### Lines -/

/-- The prints of the forms are the lines of what is printed. -/
theorem splitOn_printForms {forms : List Form} (h : ∀ v ∈ forms, v.OneLine) :
    (printForms forms).toList.splitOn '\n' =
      forms.map (fun v => (v.print .standard).toList) ++ [[]] := by
  rw [toList_printForms]
  simp only [Form.print_bare]
  induction forms with
  | nil => rfl
  | cons v forms ih =>
    obtain ⟨hv, hforms⟩ := List.forall_mem_cons.1 h
    rw [List.map_cons, List.flatMap_cons, List.append_assoc, List.singleton_append, List.splitOn,
      List.splitOnP_append_cons_of_forall_mem (fun c hc => beq_false_of_ne (hv c hc).1) '\n' rfl]
    exact congrArg _ (ih hforms)

theorem not_mem_printForms {forms : List Form} (h : ∀ v ∈ forms, v.OneLine) :
    '\r' ∉ (printForms forms).toList := by
  rw [toList_printForms]
  intro hmem
  obtain ⟨cs, hcs, hmem⟩ := List.mem_flatMap.1 hmem
  obtain ⟨v, hv, rfl⟩ := List.mem_map.1 hcs
  rw [Form.print_bare] at hmem
  rcases List.mem_append.1 hmem with hmem | hmem
  · exact (h v hv _ hmem).2 rfl
  · exact absurd hmem (by decide)

/-! ### Command lines -/

theorem takeIn_arguments (files : List String) (suppress : Bool) (v : Logging.Variables) :
    ∀ names, Draft.takeIn ⟨suppress, .gathered names, false, v⟩ (files.map .argument) =
      .ok ⟨suppress, .gathered (files.reverse ++ names), false, v⟩ := by
  induction files with
  | nil => exact fun _ => rfl
  | cons file files ih =>
    intro names
    rw [List.map_cons, Draft.takeIn, List.reverse_cons, List.append_assoc]
    exact ih (file :: names)

/-- Any files can be named behind two minus signs. -/
theorem request_read (files : List String) (suppress : Bool) (v : Logging.Variables) :
    request v ("read" :: ((if suppress then ["--suppress"] else []) ++ "--" :: files)) =
      (.read files suppress, v) := by
  let words : List Word :=
    (if suppress then [.switches [] .suppress none] else []) ++ .divider :: files.map .argument
  have hwords : Word.classifyAll Name.read.spellings
      ((if suppress then ["--suppress"] else []) ++ "--" :: files) = some words := by
    cases suppress <;> rfl
  have htaken : (Name.read.draft v).takeIn words =
      .ok ⟨suppress, .gathered (files.reverse ++ []), false, v⟩ := by
    rw [← takeIn_arguments files suppress v []]
    cases suppress <;> rfl
  show Name.read.ofWords _ v = _
  simp only [Name.ofWords, hwords, htaken]
  simp [Name.request, Draft.fileNames]

/-! ### Runs -/

/-- How a run ends by the fault that its texts have. -/
def Ending.ofFault : Option FileFault → Ending
  | none => .done
  | some (.fault (.misread _)) => .misread
  | some f => .failed (.reading f)

/-- With no variable set logging is set up, and the run reads its texts. -/
theorem read_unset (around : Surroundings) (files : List String) (suppress : Bool) :
    let r := readTexts (.standard around.host) ⟨false, suppress, none, none⟩ around
      (if files.isEmpty then [inputName] else files) around.input .empty
    (read around files suppress .unset).output = printForms r.1 ∧
      (read around files suppress .unset).ending = .ofFault r.2.1 := by
  have hinit : ((Logging.State.initial .unset).init false).1.isOk = true := by decide +kernel
  intro r
  unfold read
  rcases hlog : (Logging.State.initial .unset).init false with ⟨_ | _, log⟩
  · rw [hlog] at hinit
    cases hinit
  · rcases hr : r with ⟨forms, fault, s⟩
    simp only [r] at hr
    simp only [hr]
    rcases fault with _ | ⟨⟩ | ⟨⟩ | ⟨⟨⟩⟩ <;> exact ⟨rfl, rfl⟩

theorem status?_ofFault {readings : List (Reading W)}
    (h : ∀ r ∈ readings, ∀ f, r.fault = some f → ∃ m, f = .misread m) :
    (Ending.ofFault ((readings.findSome? Reading.fault).map .fault)).status? =
      some (if readings.any (·.fault.isSome) then 1 else 0) := by
  cases hfault : readings.findSome? Reading.fault with
  | none =>
    have hnone : readings.any (·.fault.isSome) = false := by
      simpa using List.findSome?_eq_none_iff.1 hfault
    rw [hnone]
    rfl
  | some f =>
    obtain ⟨r, hr, hf⟩ := List.exists_of_findSome?_eq_some hfault
    obtain ⟨m, rfl⟩ := h r hr f hf
    have hany : readings.any (·.fault.isSome) = true :=
      List.any_eq_true.2 ⟨r, hr, by rw [hf]; rfl⟩
    rw [hany]
    rfl

/-- A run that reads files prints a line for each form, in the order of the files and of the forms
in each of them, up to the first misreading; and if there is one, its status says so. What is
printed for a file does not depend on the others. -/
theorem run_files (around : Surroundings) {args files : List String} {suppress : Bool}
    {sources : List Source} (hargs : request .unset args = (.read files suppress, .unset))
    (hsources : around.sources? (if files.isEmpty then [inputName] else files) around.input =
      some sources) :
    let readings := sources.map fun source =>
      LispForms.read (.standard around.host) ⟨false, suppress, none, none⟩ source .empty
    (∀ r ∈ readings, ∀ f, r.fault = some f → ∃ m, f = .misread m) →
    let printed := (upToFault readings).flatMap Reading.forms
    let result := run around .unset args
    result.output = printForms printed ∧
      result.ending.status? = some (if readings.any (·.fault.isSome) then 1 else 0) ∧
      (∀ r ∈ readings, ∀ v ∈ r.forms, v.OneLine) ∧
      result.output.toList.splitOn '\n' =
        printed.map (fun v => (v.print .standard).toList) ++ [[]] ∧
      '\r' ∉ result.output.toList := by
  intro readings hreader printed result
  have hempty : Store.empty.Running := ⟨[], .empty⟩
  have hlines : ∀ r ∈ readings, ∀ v ∈ r.forms, v.OneLine := by
    intro r hr
    obtain ⟨source, hsource, rfl⟩ := List.mem_map.1 hr
    exact oneLine_of_mem_read hempty _ (Surroundings.complete_of_sources? hsources source hsource)
  have hprinted : ∀ v ∈ printed, v.OneLine := by
    intro v hv
    obtain ⟨r, hr, hv⟩ := List.mem_flatMap.1 hv
    exact hlines r (mem_of_mem_upToFault hr) v hv
  have hrun : result = read around files suppress .unset := by
    simp only [result, run, hargs]
  obtain ⟨houtput, hending⟩ := read_unset around files suppress
  obtain ⟨hforms, hfault⟩ :=
    readTexts_print around.host ⟨false, suppress, none, none⟩ hempty hempty hsources
  have hout : result.output = printForms printed := by
    rw [hrun, houtput]
    exact printForms_congr hforms
  refine ⟨hout, ?_, hlines, ?_, ?_⟩
  · rw [hrun, hending, hfault]
    exact status?_ofFault hreader
  · rw [hout]
    exact splitOn_printForms hprinted
  · rw [hout]
    exact not_mem_printForms hprinted

/-- A run that is misread in the second of three files, in front of the standard input. -/
theorem run_files_misread :
    let file (text : String) : File := .bytes (text.toList.map fun c => c.toNat.toUInt8)
    let around : Surroundings := ⟨.standard, "x (", some "<stdin>", fun name =>
      if name = "a" then file "(b \"c\nd\") e" else if name = "b" then file "f )g" else file "h"⟩
    let result := run around .unset ["read", "--", "a", "b", "-", "c"]
    result.output = "(b \"c\\nd\")\ne\nf\n" ∧ result.ending.status? = some 1 ∧
      result.output.toList.splitOn '\n' =
        ["(b \"c\\nd\")".toList, ['e'], ['f'], []] := by
  intro file around result
  let sources : List Source :=
    [⟨⟨"(b \"c\nd\") e".toList, .complete⟩, some "a"⟩, ⟨⟨"f )g".toList, .complete⟩, some "b"⟩,
      ⟨⟨"x (".toList, .complete⟩, some "<stdin>"⟩, ⟨⟨['h'], .complete⟩, some "c"⟩]
  have hsources : around.sources? ["a", "b", "-", "c"] "x (" = some sources := rfl
  let readings := sources.map fun source =>
    LispForms.read (.standard around.host) ⟨false, false, none, none⟩ source .empty
  have hfaults : readings.map Reading.fault =
      [none, some (.misread ⟨.delimiter ")", 1, 3, some "b"⟩),
        some (.misread ⟨.unfinished .form, 1, 4, some "<stdin>"⟩), none] := by decide +kernel
  have hreader : ∀ r ∈ readings, ∀ f, r.fault = some f → ∃ m, f = .misread m := by
    intro r hr f hf
    have hmem : r.fault ∈ readings.map Reading.fault := List.mem_map_of_mem hr
    rw [hfaults, hf] at hmem
    simp only [List.mem_cons, Option.some.injEq, reduceCtorEq, List.not_mem_nil, or_false,
      false_or] at hmem
    rcases hmem with rfl | rfl <;> exact ⟨_, rfl⟩
  obtain ⟨houtput, hstatus, -, hlines, -⟩ :=
    run_files around (request_read ["a", "b", "-", "c"] false .unset) hsources hreader
  have hany : readings.any (·.fault.isSome) = true := by decide +kernel
  refine ⟨houtput.trans ?_, hstatus.trans ?_, hlines.trans ?_⟩
  · show printForms ((upToFault readings).flatMap Reading.forms) = _
    decide +kernel
  · show some (if readings.any (·.fault.isSome) then 1 else 0) = some 1
    rw [hany]
    rfl
  · show ((upToFault readings).flatMap Reading.forms).map (fun v => (v.print .standard).toList) ++
      [[]] = _
    decide +kernel

end Command
end LispForms
