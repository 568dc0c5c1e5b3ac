import LispForms.Host
import Mathlib.Data.List.Infix

/-! The resolution of host names, read from left to right: the longest prefix of the name that is a
module, or the builtins if none is, and from there one attribute after the other. The resolution in
use goes from right to left and comes to the same, by the same imports. -/

namespace LispForms.Host

variable {env env' : Environment} {segs p : List String} {s name : String}

/-! ### Segments -/

/-- What a text is split into holds none of the points it is split at. -/
theorem point_not_mem_of_mem_splitOn : ∀ {cs w : List Char}, w ∈ cs.splitOn '.' → '.' ∉ w
  | [], w, h => by
    rw [List.splitOn_nil] at h
    rw [List.mem_singleton.1 h]
    exact List.not_mem_nil
  | c :: cs, w, h => by
    rw [List.splitOn_cons_eq_if_modifyHead] at h
    have ih {v : List Char} : v ∈ cs.splitOn '.' → '.' ∉ v := point_not_mem_of_mem_splitOn
    split at h
    · rcases List.mem_cons.1 h with rfl | h
      · exact List.not_mem_nil
      · exact ih h
    next hc =>
      cases hs : cs.splitOn '.' with
      | nil => simp [hs] at h
      | cons v vs =>
        rw [hs] at h ih
        rcases List.mem_cons.1 h with rfl | h
        · have hne : '.' ≠ c := fun he => hc (beq_iff_eq.2 he.symm)
          exact List.not_mem_cons_of_ne_of_not_mem hne (ih List.mem_cons_self)
        · exact ih (.tail v h)

/-- A name is its segments with points between them. -/
theorem dotted_segments (name : String) : dotted (segments name) = name := by
  have hid : String.toList ∘ String.ofList = id := funext fun _ => String.toList_ofList
  rw [dotted, segments, ← String.toList_inj, String.toList_intercalate, List.map_map, hid,
    List.map_id]
  exact List.intercalate_splitOn '.'

theorem point_not_mem_of_mem_segments (h : s ∈ segments name) : '.' ∉ s.toList := by
  obtain ⟨cs, hcs, rfl⟩ := List.mem_map.1 h
  rw [String.toList_ofList]
  exact point_not_mem_of_mem_splitOn hcs

/-- The prefixes of a name in segments, the whole name first. -/
def prefixes (segs : List String) : List (List String) := segs.inits.tail.reverse

theorem prefixes_concat (segs : List String) (s : String) :
    prefixes (segs ++ [s]) = (segs ++ [s]) :: prefixes segs := by
  have hne : segs.inits ≠ [] := by simp [← List.length_pos_iff]
  rw [prefixes, List.inits_append, List.tail_append_of_ne_nil hne, List.reverse_append]
  rfl

theorem isPrefix_of_mem_prefixes (h : p ∈ prefixes segs) : p <+: segs :=
  (List.mem_inits p segs).1 (List.mem_of_mem_tail (List.mem_reverse.1 h))

/-! ### Attributes -/

/-- Looks up the segments behind `outer`, which refers to the object: each is an attribute of what
the one before it refers to, up to the first that is missing. -/
def Object.follow (o : Object) (outer : List String) :
    List String → Except Failure Object × List String
  | [] => (.ok o, [])
  | s :: inner =>
    let name := dotted (outer ++ [s])
    match o.attribute? s with
    | none => (.error (.unresolved name), [])
    | some o =>
      let (result, findings) := o.follow (outer ++ [s]) inner
      (result, s!"Resolved host name '{name}' to <{o.id}>" :: findings)

/-- The last segment is looked up in what the others refer to. -/
theorem Object.follow_concat (inner : List String) (s : String) : ∀ (o : Object)
    (outer : List String), o.follow outer (inner ++ [s]) =
      match o.follow outer inner with
      | (.error f, findings) => (.error f, findings)
      | (.ok container, findings) =>
        let name := dotted (outer ++ inner ++ [s])
        match container.attribute? s with
        | none => (.error (.unresolved name), findings)
        | some o => (.ok o, findings ++ [s!"Resolved host name '{name}' to <{o.id}>"]) := by
  induction inner with
  | nil =>
    intro o outer
    rw [List.append_nil]
    rfl
  | cons t inner ih =>
    intro o outer
    simp only [List.cons_append, follow]
    cases o.attribute? t with
    | none => rfl
    | some o' =>
      simp only [ih o' (outer ++ [t]), List.append_assoc, List.cons_append, List.nil_append]
      rcases o'.follow (outer ++ [t]) inner with ⟨_ | container, findings⟩
      · rfl
      · dsimp only
        cases container.attribute? s <;> rfl

/-! ### From left to right -/

/-- A name that is no module is looked up in what the segments before its last one refer to. -/
def Resolution.member (r : Resolution) (name last : String) : Resolution :=
  let imports := name :: r.imports
  match r.result with
  | .error f => ⟨.error f, imports, r.findings⟩
  | .ok container =>
    match container.attribute? last with
    | none => ⟨.error (.unresolved name), imports, r.findings⟩
    | some o => ⟨.ok o, imports, r.findings ++ [s!"Resolved host name '{name}' to <{o.id}>"]⟩

namespace Environment

/-- Imports one prefix after the other, up to the first that is a module: the names that were tried,
and the module with what its import comes to. -/
def search (env : Environment) :
    List (List String) → List String × Option (List String × Except Failure Object)
  | [] => ([], none)
  | p :: shorter =>
    let name := dotted p
    match env.load name with
    | .loaded o => ([name], some (p, .ok o))
    | .failing kind => ([name], some (p, .error (.importing kind name)))
    | .absent =>
      let (tried, found) := env.search shorter
      (name :: tried, found)

/-- Resolution of a name given by its segments, from left to right. -/
def resolveForward (env : Environment) (segs : List String) : Resolution :=
  match env.search (prefixes segs) with
  | (imports, some (_, .error f)) => ⟨.error f, imports, []⟩
  | (imports, some (outer, .ok o)) =>
    let (result, findings) := o.follow outer (segs.drop outer.length)
    ⟨result, imports, s!"Resolved host name '{dotted outer}' to module <{o.id}>" :: findings⟩
  | (imports, none) =>
    let (result, findings) := (Object.mk "builtins" env.builtins).follow [] segs
    ⟨result, imports, findings⟩

/-- What is found is a prefix of the name. -/
theorem isPrefix_of_search {ps : List (List String)} {outer : List String}
    {r : Except Failure Object} (h : (env.search ps).2 = some (outer, r)) : outer ∈ ps := by
  induction ps with
  | nil => cases h
  | cons p ps ih =>
    unfold search at h
    dsimp only at h
    cases hload : env.load (dotted p) with
    | loaded o | failing kind =>
      rw [hload] at h
      cases h
      exact List.mem_cons_self
    | absent =>
      rw [hload] at h
      exact .tail p (ih h)

theorem resolveReversed_of_absent (h : env.load (dotted (segs ++ [s])) = .absent) :
    env.resolveReversed (segs ++ [s]).reverse =
      (env.resolveReversed segs.reverse).member (dotted (segs ++ [s])) s := by
  rw [List.reverse_append, List.reverse_singleton, List.singleton_append, resolveReversed,
    List.reverse_cons, List.reverse_reverse, h]
  rfl

theorem resolveForward_of_absent (h : env.load (dotted (segs ++ [s])) = .absent) :
    env.resolveForward (segs ++ [s]) =
      (env.resolveForward segs).member (dotted (segs ++ [s])) s := by
  have follow (o : Object) (outer inner imports findings : List String) :
      let (result, found) := o.follow outer (inner ++ [s])
      (⟨result, dotted (outer ++ inner ++ [s]) :: imports, findings ++ found⟩ : Resolution) =
        let (result, found) := o.follow outer inner
        (⟨result, imports, findings ++ found⟩ : Resolution).member
          (dotted (outer ++ inner ++ [s])) s := by
    rw [o.follow_concat]
    rcases o.follow outer inner with ⟨f | container, found⟩
    · rfl
    · dsimp only [Resolution.member]
      cases container.attribute? s <;> simp
  rw [resolveForward, resolveForward, prefixes_concat, search, h]
  dsimp only
  have hfound := @isPrefix_of_search env (prefixes segs)
  rcases hs : env.search (prefixes segs) with ⟨imports, _ | ⟨outer, f | o⟩⟩
  · exact follow (.mk "builtins" env.builtins) [] segs imports []
  · rfl
  · obtain ⟨inner, rfl⟩ := isPrefix_of_mem_prefixes (hfound (congrArg Prod.snd hs))
    dsimp only
    rw [List.append_assoc, List.drop_left, List.drop_left, ← List.append_assoc]
    exact follow o outer inner imports [_]

/-- Both ways of resolving a name come to the same. The induction is on the last segment, which the
one from right to left looks at first. -/
theorem resolveReversed_reverse (env : Environment) (segs : List String) :
    env.resolveReversed segs.reverse = env.resolveForward segs := by
  induction segs using List.reverseRecOn with
  | nil => rfl
  | append_singleton segs s ih =>
    have hreverse : (segs ++ [s]).reverse = s :: segs.reverse := by simp
    cases hload : env.load (dotted (segs ++ [s])) with
    | absent => rw [resolveReversed_of_absent hload, resolveForward_of_absent hload, ih]
    | loaded o =>
      rw [hreverse, resolveReversed, ← hreverse, List.reverse_reverse, hload, resolveForward,
        prefixes_concat, search, hload]
      simp [Object.follow]
    | failing kind =>
      rw [hreverse, resolveReversed, ← hreverse, List.reverse_reverse, hload, resolveForward,
        prefixes_concat, search, hload]

/-! ### What a resolution depends on -/

theorem search_congr {ps : List (List String)}
    (h : ∀ p ∈ ps, env.load (dotted p) = env'.load (dotted p)) :
    env.search ps = env'.search ps := by
  induction ps with
  | nil => rfl
  | cons p ps ih =>
    rw [search, search, h p List.mem_cons_self, ih fun q hq => h q (.tail p hq)]

theorem load_of_search {ps : List (List String)} (h : (env.search ps).2 = none) :
    ∀ p ∈ ps, env.load (dotted p) = .absent := by
  induction ps with
  | nil => exact fun p hp => nomatch hp
  | cons p ps ih =>
    unfold search at h
    dsimp only at h
    cases hload : env.load (dotted p) with
    | loaded o | failing kind =>
      rw [hload] at h
      cases h
    | absent =>
      rw [hload] at h
      exact List.forall_mem_cons.2 ⟨hload, ih h⟩

/-- A resolution looks at the prefixes of its name among the modules, and at the builtins if none of
them is one. -/
theorem resolveForward_congr (h : ∀ p ∈ prefixes segs, env.load (dotted p) = env'.load (dotted p))
    (hbuiltins : (∀ p ∈ prefixes segs, env.load (dotted p) = .absent) →
      env.builtins = env'.builtins) : env.resolveForward segs = env'.resolveForward segs := by
  have habsent := @load_of_search env (prefixes segs)
  rw [resolveForward, resolveForward, ← search_congr h]
  rcases hs : env.search (prefixes segs) with ⟨imports, _ | ⟨outer, f | o⟩⟩
  · rw [hbuiltins (habsent (congrArg Prod.snd hs))]
  · rfl
  · rfl

/-- A name with an empty segment is refused as a whole and nothing is imported for it. Any other
refers to what its longest prefix that is a module and the attributes behind it lead to, and nothing
else is looked at. -/
theorem resolve_eq_resolveForward (env : Environment) (name : String) :
    (dotted (segments name) = name ∧ ∀ s ∈ segments name, '.' ∉ s.toList) ∧
    env.resolve name = (if "" ∈ segments name then ⟨.error (.invalid name), [], []⟩
      else env.resolveForward (segments name)) ∧
    ∀ env' : Environment,
      (∀ p ∈ prefixes (segments name), env.load (dotted p) = env'.load (dotted p)) →
      ((∀ p ∈ prefixes (segments name), env.load (dotted p) = .absent) →
        env.builtins = env'.builtins) → env.resolve name = env'.resolve name := by
  have hresolve (env : Environment) : env.resolve name =
      if "" ∈ segments name then ⟨.error (.invalid name), [], []⟩
      else env.resolveForward (segments name) := by
    rw [resolve, resolveReversed_reverse]
    simp only [List.contains_iff_mem]
  refine ⟨⟨dotted_segments name, fun s => point_not_mem_of_mem_segments⟩, hresolve env, ?_⟩
  intro env' h hbuiltins
  rw [hresolve env, hresolve env', resolveForward_congr h hbuiltins]

/-- The member of a class in a module, next to which no other module counts. -/
theorem resolve_eq_resolveForward_member :
    let name := "collections.OrderedDict.fromkeys"
    let alone : Environment := ⟨standard.modules.take 1, []⟩
    standard.resolve name = alone.resolve name ∧
    (standard.resolve name).imports = [name, "collections.OrderedDict", "collections"] ∧
    (standard.resolve name).result.map Object.id =
      .ok "module collections.OrderedDict.fromkeys" := by
  intro name alone
  obtain ⟨-, hresolve, hcongr⟩ := resolve_eq_resolveForward standard name
  have hsegs : segments name = ["collections", "OrderedDict", "fromkeys"] := by decide
  have hprefixes : prefixes (segments name) = [["collections", "OrderedDict", "fromkeys"],
      ["collections", "OrderedDict"], ["collections"]] := by
    rw [hsegs]
    rfl
  refine ⟨hcongr alone ?_ ?_, ?_⟩
  · rw [hprefixes]
    simp only [List.forall_mem_cons, List.not_mem_nil, false_imp_iff, implies_true, and_true]
    exact ⟨rfl, rfl, rfl⟩
  · rw [hprefixes]
    intro h
    cases h ["collections"] (by decide)
  · rw [hresolve, hsegs, if_neg (by decide)]
    exact ⟨rfl, rfl⟩

end Environment
end LispForms.Host
