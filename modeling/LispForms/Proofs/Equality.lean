import LispForms.Proofs.ExactNumbers
import LispForms.Proofs.Store.Registry

/-! Equality of forms. A form is compared by its essence: the exact value of a number, the name of a
symbol, the object that a var or a host form is about, and the essences of the items of a list. Two
forms are equal just when they have one essence, and all forms that are read have one, so that
among them equality is an equivalence. -/

namespace LispForms

open Number (Binary64)

/-- What counts of a form when it is compared. -/
inductive Essence where
  | nil
  | bool (b : Bool)
  | number (q : ℚ)
  | infinite (negative : Bool)
  | text (s : String)
  | symbol (q : QName)
  | space (id : ℕ)
  | var (id : ℕ)
  | pair (ns name : String)
  | list (items : List Essence)
  | accessor (member : String)
  | className (type : String)
  | instanceMember (type member : String)
  | staticMember (type member : String)

def Essence.isNumber : Essence → Bool
  | number _ | infinite _ => true
  | _ => false

namespace Form

variable {x y : Form} {a b : Essence} {u v : Value} {xs ys : List Form} {as bs : List Essence}

/-- None if the value is not a number. -/
def Value.essence? : Value → Option Essence
  | quotient n d => if d = 0 then none else some (.number (n / d))
  | infinite negative => some (.infinite negative)
  | undefined => none

mutual

/-- The spans of lists and the spelled names of host forms do not count. There is none if what
stands for a number somewhere in the form is not one. -/
def essence? : Form → Option Essence
  | nil => some .nil
  | bool b => some (.bool b)
  | integer n => (Value.quotient n 1).essence?
  | ratio num den => (Value.quotient num den).essence?
  | float x => (floatValue x).essence?
  | text s => some (.text s)
  | symbol x => some (.symbol x.toQName)
  | space n => some (.space n.id)
  | var v => some (.var v.id)
  | pair ns name => some (.pair ns name)
  | list items _ => (itemsEssence? items).map .list
  | accessor member => some (.accessor member)
  | className type _ => some (.className type.id)
  | instanceMember type member _ => some (.instanceMember type.id member)
  | staticMember type member _ => some (.staticMember type.id member)

def itemsEssence? : List Form → Option (List Essence)
  | [] => some []
  | x :: xs => (essence? x).bind fun a => (itemsEssence? xs).map (a :: ·)

end

/-- What holds of every form that is no list, and of a list if it holds of its items. -/
@[elab_as_elim]
theorem itemInduction {P : Form → Prop} (atom : ∀ x, x.isList = false → P x)
    (list : ∀ items span, (∀ x ∈ items, P x) → P (list items span)) (x : Form) : P x := by
  cases x with
  | list items span => exact list items span fun x _ => itemInduction atom list x
  | _ => exact atom _ rfl

/-! ### Numbers -/

namespace Value

theorem essence?_quotient_eq_some {n : ℤ} {d : ℕ} (h : (quotient n d).essence? = some a) :
    d ≠ 0 ∧ a = .number (n / d) := by
  obtain ⟨hd, ha⟩ := Option.ite_none_left_eq_some.1 h
  exact ⟨hd, (Option.some.inj ha).symm⟩

theorem isNumber (hv : v.essence? = some a) : a.isNumber = true := by
  cases v with
  | undefined => cases hv
  | infinite negative =>
    obtain rfl := Option.some.inj hv
    rfl
  | quotient n d =>
    obtain ⟨-, rfl⟩ := essence?_quotient_eq_some hv
    rfl

/-- Nothing but a number has the essence of one. -/
theorem some_ne_essence? (ha : a.isNumber = false) (v : Value) : some a ≠ v.essence? := by
  intro h
  rw [isNumber h.symm] at ha
  cases ha

/-- Numbers are the same by their exact value. -/
theorem same_iff (hv : v.essence? = some a) (hu : u.essence? = some b) :
    v.same u = true ↔ a = b := by
  cases v with
  | undefined => cases hv
  | infinite negative =>
    obtain rfl := Option.some.inj hv
    cases u with
    | undefined => cases hu
    | infinite negative' =>
      obtain rfl := Option.some.inj hu
      simp [Value.same]
    | quotient n d =>
      obtain ⟨-, rfl⟩ := essence?_quotient_eq_some hu
      simp [Value.same]
  | quotient n d =>
    obtain ⟨hd, rfl⟩ := essence?_quotient_eq_some hv
    cases u with
    | undefined => cases hu
    | infinite negative =>
      obtain rfl := Option.some.inj hu
      simp [Value.same]
    | quotient n' d' =>
      obtain ⟨hd', rfl⟩ := essence?_quotient_eq_some hu
      rw [Essence.number.injEq, div_eq_div_iff (by exact_mod_cast hd) (by exact_mod_cast hd'),
        Value.same, beq_iff_eq]
      norm_cast

end Value

theorem essence?_of_value? (hx : x.value? = some v) : x.essence? = v.essence? := by
  cases x with
  | integer | ratio | float =>
    obtain rfl := Option.some.inj hx
    rw [essence?]
  | _ => cases hx

theorem isNumber_eq_false (hx : x.value? = none) (ha : x.essence? = some a) :
    a.isNumber = false := by
  cases x with
  | integer | ratio | float => cases hx
  | list items span =>
    rw [essence?] at ha
    obtain ⟨as, -, rfl⟩ := Option.map_eq_some_iff.1 ha
    rfl
  | _ =>
    rw [essence?] at ha
    obtain rfl := Option.some.inj ha
    rfl

theorem same_of_value? (hx : x.value? = some v) (y : Form) : x.same y = sameValue v y := by
  cases x with
  | integer | ratio | float =>
    obtain rfl := Option.some.inj hx
    rw [same]
  | _ => cases hx

theorem same_eq_false_of_value? (hx : x.value? = none) (hy : y.value? = some v) :
    x.same y = false := by
  cases y <;> cases hy <;> cases x <;> cases hx <;> simp [same]

/-! ### Essences -/

/-- A form that is no list and no number is told from any other by its kind and its parts. -/
theorem same_iff_of_value?_eq_none (hx : x.isList = false) (hv : x.value? = none) :
    x.same y = true ↔ x.essence? = y.essence? := by
  cases hu : y.value? with
  | none => cases x <;> cases hx <;> cases hv <;> cases y <;> cases hu <;> simp [same, essence?]
  | some u =>
    rw [same_eq_false_of_value? hv hu, essence?_of_value? hu]
    refine iff_of_false Bool.false_ne_true ?_
    cases x <;> cases hx <;> cases hv <;> exact Value.some_ne_essence? rfl u

/-- A number is told from any other form by its value. -/
theorem same_iff_of_value? (hv : x.value? = some v) (ha : x.essence? = some a)
    (hb : y.essence? = some b) : x.same y = true ↔ a = b := by
  rw [essence?_of_value? hv] at ha
  rw [same_of_value? hv, sameValue]
  cases hu : y.value? with
  | some u =>
    rw [essence?_of_value? hu] at hb
    exact Value.same_iff ha hb
  | none =>
    refine iff_of_false Bool.false_ne_true ?_
    rintro rfl
    have hnumber := Value.isNumber ha
    rw [isNumber_eq_false hu hb] at hnumber
    cases hnumber

theorem itemsEssence?_cons : itemsEssence? (x :: xs) = some as ↔
    ∃ a bs, x.essence? = some a ∧ itemsEssence? xs = some bs ∧ as = a :: bs := by
  simp only [itemsEssence?, Option.bind_eq_some_iff, Option.map_eq_some_iff, @eq_comm _ as,
    exists_and_left]

theorem essence?_list {span : Option Span} : (list xs span).essence? = some a ↔
    ∃ as, itemsEssence? xs = some as ∧ a = .list as := by
  rw [essence?, Option.map_eq_some_iff]
  simp only [eq_comm]

/-- Nothing but a list is compared by items. -/
theorem essence?_ne_list (hx : x.isList = false) : x.essence? ≠ some (.list as) := by
  intro h
  cases hv : x.value? with
  | some v =>
    rw [essence?_of_value? hv] at h
    cases Value.isNumber h
  | none => cases x <;> cases hx <;> cases hv <;> cases h

theorem same_list_eq_false {span : Option Span} (hy : y.isList = false) :
    (list xs span).same y = false := by
  cases y <;> cases hy <;> simp [same]

theorem sameItems_iff (h : ∀ x ∈ xs, ∀ {y a b}, x.essence? = some a → y.essence? = some b →
    (x.same y = true ↔ a = b)) : ∀ {ys as bs}, itemsEssence? xs = some as →
      itemsEssence? ys = some bs → (sameItems xs ys = true ↔ as = bs) := by
  induction xs with
  | nil =>
    intro ys as bs has hbs
    obtain rfl := Option.some.inj has
    cases ys with
    | nil =>
      obtain rfl := Option.some.inj hbs
      simp [sameItems]
    | cons y ys =>
      obtain ⟨b, bs, -, -, rfl⟩ := itemsEssence?_cons.1 hbs
      simp [sameItems]
  | cons x xs ih =>
    intro ys as bs hxs hys
    obtain ⟨a, as, ha, has, rfl⟩ := itemsEssence?_cons.1 hxs
    cases ys with
    | nil =>
      obtain rfl := Option.some.inj hys
      simp [sameItems]
    | cons y ys =>
      obtain ⟨b, bs, hb, hbs, rfl⟩ := itemsEssence?_cons.1 hys
      rw [sameItems, Bool.and_eq_true, h x List.mem_cons_self ha hb,
        ih (fun x hx => h x (.tail _ hx)) has hbs, List.cons.injEq]

/-- Two forms are equal just when they have the same essence. -/
theorem same_iff (ha : x.essence? = some a) (hb : y.essence? = some b) :
    x.same y = true ↔ a = b := by
  induction x using itemInduction generalizing y a b with
  | atom x hx =>
    cases hv : x.value? with
    | some v => exact same_iff_of_value? hv ha hb
    | none => rw [same_iff_of_value?_eq_none hx hv, ha, hb, Option.some_inj]
  | list xs span ih =>
    obtain ⟨as, has, rfl⟩ := essence?_list.1 ha
    cases hy : y.isList with
    | false =>
      rw [same_list_eq_false hy]
      refine iff_of_false Bool.false_ne_true ?_
      rintro rfl
      exact essence?_ne_list hy hb
    | true =>
      cases y with
      | list ys span' =>
        obtain ⟨bs, hbs, rfl⟩ := essence?_list.1 hb
        rw [same, sameItems_iff ih has hbs, Essence.list.injEq]
      | _ => cases hy

/-! ### What does not count -/

mutual

/-- The form with no list knowing its place and no host form knowing how it was spelled. -/
def unnamed : Form → Form
  | list items _ => list (unnamedItems items) none
  | className type _ => className type ""
  | instanceMember type member _ => instanceMember type member ""
  | staticMember type member _ => staticMember type member ""
  | x => x

def unnamedItems : List Form → List Form
  | [] => []
  | x :: xs => unnamed x :: unnamedItems xs

end

theorem itemsEssence?_unnamedItems (h : ∀ x ∈ xs, x.unnamed.essence? = x.essence?) :
    itemsEssence? (unnamedItems xs) = itemsEssence? xs := by
  induction xs with
  | nil => rfl
  | cons x xs ih =>
    rw [unnamedItems, itemsEssence?, itemsEssence?, h x List.mem_cons_self,
      ih fun x hx => h x (.tail _ hx)]

theorem essence?_unnamed (x : Form) : x.unnamed.essence? = x.essence? := by
  induction x using itemInduction with
  | atom x hx => cases x <;> first | rfl | cases hx
  | list xs span ih => rw [unnamed, essence?, essence?, itemsEssence?_unnamedItems ih]

theorem sameItems_iff_forall₂ : ∀ {xs ys : List Form},
    sameItems xs ys = true ↔ List.Forall₂ (fun x y => x.same y = true) xs ys
  | [], [] => by simp [sameItems]
  | [], _ :: _ | _ :: _, [] => by simp [sameItems]
  | x :: xs, y :: ys => by
    rw [sameItems, Bool.and_eq_true, List.forall₂_cons, sameItems_iff_forall₂]

/-- Lists are the same if they have the same length and the same items, each at its place. -/
theorem same_list_iff {s t : Option Span} : (list xs s).same (list ys t) = true ↔
    xs.length = ys.length ∧ ∀ i (hx : i < xs.length) (hy : i < ys.length),
      xs[i].same ys[i] = true := by
  rw [same, sameItems_iff_forall₂, List.forall₂_iff_get]
  rfl

/-! ### Forms that are read -/

/-- What stands for a number in the form is one. -/
def HasEssence (x : Form) : Prop := ∃ a, x.essence? = some a

theorem exists_itemsEssence? :
    (∃ as, itemsEssence? xs = some as) ↔ ∀ x ∈ xs, x.HasEssence := by
  induction xs with
  | nil => exact iff_of_true ⟨[], rfl⟩ (by simp)
  | cons x xs ih =>
    rw [List.forall_mem_cons, ← ih]
    simp only [HasEssence, itemsEssence?_cons]
    exact ⟨fun ⟨_, a, as, ha, has, _⟩ => ⟨⟨a, ha⟩, as, has⟩,
      fun ⟨⟨a, ha⟩, as, has⟩ => ⟨_, a, as, ha, has, rfl⟩⟩

theorem hasEssence_list {span : Option Span} :
    (list xs span).HasEssence ↔ ∀ x ∈ xs, x.HasEssence := by
  rw [← exists_itemsEssence?]
  simp only [HasEssence, essence?_list]
  exact ⟨fun ⟨_, as, has, _⟩ => ⟨as, has⟩, fun ⟨as, has⟩ => ⟨_, as, has, rfl⟩⟩

theorem Within.hasEssence (h : x.Within xs) (hxs : ∀ y ∈ xs, y.HasEssence) : x.HasEssence := by
  induction h with
  | here h => exact hxs _ h
  | inside h _ ih => exact ih (hasEssence_list.1 (hxs _ h))

theorem hasEssence_of_value? (hx : x.value? = some v) (hv : v.essence? ≠ none) :
    x.HasEssence := by
  rw [HasEssence, essence?_of_value? hx]
  exact Option.ne_none_iff_exists'.1 hv

theorem Value.essence?_quotient_ne_none (n : ℤ) {d : ℕ} (hd : d ≠ 0) :
    (quotient n d).essence? ≠ none := by
  rw [essence?, if_neg hd]
  exact Option.some_ne_none _

/-- Up to infinity a magnitude is that of a number. -/
theorem essence?_floatValue_ne_none {f : Binary64} (hf : f.magnitude ≤ Binary64.infinity) :
    (floatValue f).essence? ≠ none := by
  unfold floatValue
  split
  · exact Value.essence?_quotient_ne_none _ (Nat.two_pow_pos _).ne'
  next hfinite =>
    have hinfinite : f.isInfinite = true := by
      simp only [Binary64.isFinite, decide_eq_true_eq, not_lt] at hfinite
      exact beq_iff_eq.2 (hf.antisymm hfinite)
    rw [if_pos hinfinite]
    exact Option.some_ne_none _

theorem Denoted.hasEssence (h : x.Denoted) : x.HasEssence := by
  cases h with
  | integer n => exact hasEssence_of_value? rfl (Value.essence?_quotient_ne_none n Nat.one_ne_zero)
  | quotient n hd =>
    rw [quotient_eq_ofRat n hd]
    exact hasEssence_of_value? (value?_ofRat _)
      (Value.essence?_quotient_ne_none _ (Rat.den_ne_zero _))
  | float negative d =>
    exact hasEssence_of_value? rfl (essence?_floatValue_ne_none (Binary64.nearest_le d))
  | _ => exact ⟨_, rfl⟩

end Form

theorem Services.yields_hasEssence (env : Host.Environment) :
    (standard env).Yields (fun _ => True) fun _ v => v.HasEssence where
  keeps := (standard env).keeps_true
  later _ := ⟨fun _ h => h, fun _ _ h => h, fun _ h => h, fun _ h => h⟩
  symbol _ _ := ⟨_, rfl⟩
  var _ _ _ := ⟨_, rfl⟩
  constant h := h.hasEssence
  list _ h := Form.hasEssence_list.2 h

namespace Store

variable {h : List Operation} {x : Form}

/-- The form was read at some moment, by itself or in a list. -/
def WasRead (h : List Operation) (x : Form) : Prop :=
  ∃ op past, op :: past <:+ h ∧ op.isReading = true ∧ x.Within (op.run (after past)).1

example : WasRead [.read .standard .standard (.ofString "(a)")] (.symbol ⟨⟨"a", none⟩, 0⟩) := by
  refine ⟨_, [], List.suffix_rfl, rfl, .inside (List.mem_singleton.2 rfl) (.here ?_)⟩
  exact List.mem_singleton.2 rfl

theorem WasRead.hasEssence (hx : WasRead h x) : x.HasEssence := by
  obtain ⟨op, past, -, hop, hx⟩ := hx
  exact hx.hasEssence (op.forms_of_yields hop Services.yields_hasEssence trivial)

/-- Among all forms that are ever read, at whatever moments, equality is an equivalence. Neither the
places of lists nor the spellings of host forms count, at whatever depth, and lists are equal just
when they have equal items in the same number and order. Forms are equal just when they have one
essence, which every form that is read has, and two vars that are read are equal just when they are
one. -/
theorem equality_of_forms (h : List Operation) :
    Equivalence (fun x y : { x // WasRead h x } => x.1.same y.1 = true) ∧
    (∀ x y (x' y' : Form), WasRead h x → WasRead h y → x'.unnamed = x.unnamed →
      y'.unnamed = y.unnamed → x'.same y' = x.same y) ∧
    (∀ xs ys s t, (Form.list xs s).same (.list ys t) = true ↔ xs.length = ys.length ∧
      ∀ i (hx : i < xs.length) (hy : i < ys.length), xs[i].same ys[i] = true) ∧
    (∀ x y, WasRead h x → WasRead h y → ∃ a b, x.essence? = some a ∧ y.essence? = some b ∧
      (x.same y = true ↔ a = b)) ∧
    (Legal h → ∀ u v, WasRead h (.var u) → WasRead h (.var v) →
      ((Form.var u).same (.var v) = true ↔ u = v)) := by
  have hsame {x y : Form} (hx : WasRead h x) (hy : WasRead h y) :
      x.same y = true ↔ x.essence? = y.essence? := by
    obtain ⟨a, ha⟩ := hx.hasEssence
    obtain ⟨b, hb⟩ := hy.hasEssence
    rw [Form.same_iff ha hb, ha, hb, Option.some_inj]
  refine ⟨⟨fun x => ?_, fun {x y} hxy => ?_, fun {x y z} hxy hyz => ?_⟩,
    fun x y x' y' hx hy hx' hy' => ?_, fun xs ys s t => Form.same_list_iff,
    fun x y hx hy => ?_, fun hl u v hu hv => ?_⟩
  · rw [hsame x.2 x.2]
  · rw [hsame x.2 y.2] at hxy
    rw [hsame y.2 x.2, hxy]
  · rw [hsame x.2 y.2] at hxy
    rw [hsame y.2 z.2] at hyz
    rw [hsame x.2 z.2, hxy, hyz]
  · obtain ⟨a, ha⟩ := hx.hasEssence
    obtain ⟨b, hb⟩ := hy.hasEssence
    have ha' : x'.essence? = some a := by rw [← x'.essence?_unnamed, hx', x.essence?_unnamed, ha]
    have hb' : y'.essence? = some b := by rw [← y'.essence?_unnamed, hy', y.essence?_unnamed, hb]
    rw [Bool.eq_iff_iff, Form.same_iff ha hb, Form.same_iff ha' hb']
  · obtain ⟨a, ha⟩ := hx.hasEssence
    obtain ⟨b, hb⟩ := hy.hasEssence
    exact ⟨a, b, ha, hb, Form.same_iff ha hb⟩
  · obtain ⟨op, past, hop, -, hu⟩ := hu
    obtain ⟨op', past', hop', -, hv⟩ := hv
    rw [Form.same, beq_iff_eq]
    exact ⟨(tables_after h).eq_of_id (hl.stored hop hu) (hl.stored hop' hv), congrArg Var.id⟩

end Store
end LispForms
