import LispForms.Proofs.Classes
import LispForms.Reader.Services

/-! Why a token has no value. A token that is at fault is so as a whole, whatever stands around it,
and none of its faults is one that the characters of a text have by themselves: an end that comes
too soon, a parenthesis too many, an unknown escape or an unknown character. -/

namespace LispForms

/-- Whether a text has the problem by its characters alone, whatever its tokens denote. -/
def Problem.isStructural (p : Problem) : Bool :=
  [ErrorKind.unexpectedEnd, .unmatchedDelimiter, .unsupportedEscape,
    .unsupportedCharacter].contains p.kind

namespace Fault

/-- Whether the text ended where more was expected. -/
def isUnexpectedEnd : Fault → Bool
  | misread m => m.problem.kind == .unexpectedEnd
  | _ => false

def isStructural : Fault → Bool
  | misread m => m.problem.isStructural
  | _ => false

theorem isStructural_of_isUnexpectedEnd {f : Fault} (h : f.isUnexpectedEnd = true) :
    f.isStructural = true := by
  cases f with
  | misread m =>
    have hkind : m.problem.kind = .unexpectedEnd := beq_iff_eq.1 h
    simp [isStructural, Problem.isStructural, hkind]
  | _ => cases h

end Fault

namespace Token

/-- The path in a token that names a class by it, or a member of what it names. -/
inductive HasPath : List Char → String → Prop
  | className {path : String} (hp : isPath path.toList = true) :
    HasPath (path.toList ++ ['.']) path
  | instanceMember {path member : String} (hp : isPath path.toList = true)
    (hm : isIdentifier member.toList = true) :
    HasPath ('.' :: path.toList ++ '.' :: member.toList) path
  | staticMember {path member : String} (hp : isPath path.toList = true)
    (hm : isIdentifier member.toList = true) :
    HasPath (path.toList ++ '.' :: member.toList) path

variable {cs : List Char} {m : Meaning} {k : TokenClass} {path member : String}

open TokenClass

/-- The last point stands between the two parts and nothing is lost. -/
theorem splitLastPoint_eq_some {p : List Char × List Char} (h : splitLastPoint cs = some p) :
    cs = p.1 ++ '.' :: p.2 := by
  unfold splitLastPoint at h
  split at h
  · cases h
  next x before hdrop =>
    cases h
    have hhead := List.head?_dropWhile_not (· != '.') cs.reverse
    have hsplit := @List.takeWhile_append_dropWhile _ (· != '.') cs.reverse
    rw [hdrop] at hhead hsplit
    obtain rfl : x = '.' := by simpa using hhead
    have hrev := congrArg List.reverse hsplit
    simpa using hrev.symm

theorem toList_of_className? (h : className? cs = some (.className path)) :
    cs = path.toList ++ ['.'] := by
  unfold className? at h
  split at h
  next hparts =>
    cases h
    simp only [Bool.and_eq_true, beq_iff_eq] at hparts
    obtain ⟨ds, rfl⟩ := List.getLast?_eq_some_iff.1 hparts.1
    rw [String.toList_ofList, List.dropLast_concat]
  next => cases h

theorem toList_of_member? {p : String × String} (h : member? cs = some p) :
    cs = p.1.toList ++ '.' :: p.2.toList := by
  simp only [member?, Option.bind_eq_bind, Option.bind_eq_some_iff] at h
  obtain ⟨⟨path, member⟩, hsplit, h⟩ := h
  split at h
  · cases h
    simpa using splitLastPoint_eq_some hsplit
  · cases h

theorem of_point (h : instanceMember? cs = some m) :
    ∃ ds, cs = '.' :: ds ∧ (member? ds).map (fun p => .instanceMember p.1 p.2) = some m := by
  unfold instanceMember? at h
  split at h
  · exact ⟨_, rfl, h⟩
  · cases h

/-- The path that a meaning has looked up. -/
def Meaning.path? : Meaning → Option String
  | className path | instanceMember path _ | staticMember path _ => some path
  | _ => none

theorem hasPath_of_classify (h : classify cs = some (k, m)) (hp : m.path? = some path) :
    HasPath cs path := by
  have hm := meaning?_of_classify h
  cases k with
  | null => rw [of_null? hm] at hp; cases hp
  | symbol => rw [of_symbol? hm] at hp; cases hp
  | var => obtain ⟨_, _, -, -, -, rfl⟩ := of_var? hm; cases hp
  | integer => obtain ⟨_, _, -, rfl⟩ := of_integer? hm; cases hp
  | float => obtain ⟨_, _, rfl⟩ := of_float? hm; cases hp
  | ratio => obtain ⟨_, _, _, -, -, rfl⟩ := of_ratio? hm; cases hp
  | accessor => obtain ⟨_, -, rfl⟩ := of_accessor? hm; cases hp
  | className =>
    obtain ⟨p, hpath, rfl⟩ := of_className? hm
    cases hp
    rw [toList_of_className? hm]
    exact .className hpath
  | instanceMember =>
    obtain ⟨ds, rfl, hds⟩ := of_point hm
    obtain ⟨p, hmem, rfl⟩ := Option.map_eq_some_iff.1 hds
    cases hp
    rw [toList_of_member? hmem]
    exact .instanceMember (of_member? hmem).1 (of_member? hmem).2
  | staticMember =>
    obtain ⟨p, hmem, rfl⟩ := Option.map_eq_some_iff.1 hm
    cases hp
    rw [toList_of_member? hmem]
    exact .staticMember (of_member? hmem).1 (of_member? hmem).2

/-- The faults of a token; `locate` gives a problem its place. -/
inductive Fails (locate : Problem → Fault) (cs : List Char) : Fault → Prop
  | unknown (h : classify cs = none) : Fails locate cs (locate (.token (.ofList cs)))
  | zeroDenominator (numerator : Int) :
    Fails locate cs (locate (.zeroDenominator (.ofList cs) numerator))
  | host {path : String} (h : HasPath cs path) (reason : Host.Failure) :
    Fails locate cs (locate (.host path reason))
  | tooManyDigits (count : Nat) : Fails locate cs (.tooManyDigits count)
  | importing (kind : Host.ImportFailure) (name : String) :
    Fails locate cs (.importing kind name)

end Token

namespace Services

open Token

variable {W : Type} {sv : Services W} {locate : Problem → Fault} {cs : List Char} {f : Fault}
  {w w' : W}

theorem fails_of_convert {ds : List Char} (h : convert ds = .error f) : Fails locate cs f := by
  unfold convert at h
  split at h <;> cases h
  exact .tooManyDigits _

theorem fails_of_ratio {negative : Bool} {num den : List Char}
    (h : ratio locate (.ofList cs) negative num den = .error f) : Fails locate cs f := by
  unfold ratio at h
  cases hn : convert num with
  | error g =>
    rw [hn] at h
    cases h
    exact fails_of_convert hn
  | ok n =>
    cases hd : convert den with
    | error g =>
      rw [hn, hd] at h
      cases h
      exact fails_of_convert hd
    | ok d =>
      rw [hn, hd] at h
      simp only [bind, Except.bind] at h
      split at h <;> cases h
      exact .zeroDenominator _

theorem fails_of_resolve {path : String} (hp : HasPath cs path)
    (h : (sv.resolve locate path w).1 = .error f) : Fails locate cs f := by
  unfold resolve at h
  split at h
  · cases h
  · cases h
    exact .importing _ _
  · cases h
    exact .host hp _

theorem fails_of_value {k : TokenClass} {m : Meaning} (hm : classify cs = some (k, m))
    (h : (sv.value locate (.ofList cs) m w).1 = .error f) : Fails locate cs f := by
  have named {path : String} {g : Host.Ref → Form} (hp : m.path? = some path)
      (h : (sv.resolve locate path w).1.map g = .error f) : Fails locate cs f := by
    cases hr : (sv.resolve locate path w).1 with
    | ok type => rw [hr] at h; cases h
    | error f' =>
      rw [hr] at h
      cases h
      exact fails_of_resolve (hasPath_of_classify hm hp) hr
  cases m with
  | nil | symbol | var | float | accessor => cases h
  | integer negative ds =>
    have h : (convert ds).map _ = .error f := h
    cases hc : convert ds with
    | ok n => rw [hc] at h; cases h
    | error f' =>
      rw [hc] at h
      cases h
      exact fails_of_convert hc
  | ratio negative num den => exact fails_of_ratio h
  | className path | instanceMember path member | staticMember path member => exact named rfl h

/-- A token without a value has one of the faults of a token. -/
theorem fails_of_interpret (h : sv.interpret locate cs w = (.error f, w')) : Fails locate cs f := by
  unfold interpret at h
  cases hm : classify cs with
  | none =>
    rw [hm] at h
    cases h
    exact .unknown hm
  | some km =>
    rw [hm] at h
    exact fails_of_value hm (congrArg Prod.fst h)

end Services

theorem Token.Fails.isStructural {locate : Problem → Fault} {cs : List Char} {f : Fault}
    (h : Fails locate cs f) (hl : ∀ p, (locate p).isStructural = p.isStructural) :
    f.isStructural = false := by
  cases h with
  | unknown | zeroDenominator | host => rw [hl]; rfl
  | tooManyDigits | importing => rfl

end LispForms
