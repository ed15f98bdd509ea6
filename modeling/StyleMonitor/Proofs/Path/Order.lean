import StyleMonitor.Proofs.Path.Relative

/-!
# The order of paths

Paths are ordered by their components, so two spellings of one path stand at the same place. Paths
that are looked up from one base stand in the order in which they stand by themselves.
-/

namespace StyleMonitor

namespace Component

theorem compare_name (first second : String) :
    compare (name first) (name second) = Ord.compare first second := rfl

instance : Std.OrientedCmp compare where
  eq_swap {a b} := by
    cases a with
    | name first =>
      cases b with
      | name second =>
        rw [compare_name, compare_name]
        exact Std.OrientedCmp.eq_swap
      | _ => rfl
    | _ => cases b <;> rfl

instance : Std.TransCmp compare where
  isLE_trans {a b c} first second := by
    cases a with
    | name one =>
      cases b with
      | name two =>
        cases c with
        | name three =>
          rw [compare_name] at first second ⊢
          exact Std.TransCmp.isLE_trans first second
        | _ => exact absurd second Bool.false_ne_true
      | _ => exact absurd first Bool.false_ne_true
    | _ =>
      cases b <;> cases c <;> first
        | rfl
        | exact absurd first Bool.false_ne_true
        | exact absurd second Bool.false_ne_true

instance : Std.LawfulEqCmp compare where
  compare_self {a} := by
    cases a with
    | name text =>
      rw [compare_name]
      exact Std.ReflCmp.compare_self
    | _ => rfl
  eq_of_compare {a b} same := by
    cases a with
    | name first =>
      cases b with
      | name second =>
        rw [compare_name] at same
        exact congrArg name (Std.LawfulEqCmp.eq_of_compare same)
      | _ => cases same
    | _ => cases b <;> first | rfl | cases same

end Component

namespace Path

theorem compareComponents_eq : compareComponents = List.compareLex Component.compare := by
  funext first second
  induction first generalizing second with
  | nil => cases second <;> rfl
  | cons a rest ih =>
    cases second with
    | nil => rfl
    | cons b others => rw [compareComponents, List.compareLex_cons_cons, ih]

/-- What stands first of two paths. -/
def order (a b : String) : Ordering :=
  List.compareLex Component.compare (components a) (components b)

theorem order_swap (a b : String) : order a b = (order b a).swap :=
  @Std.OrientedCmp.eq_swap _ (List.compareLex Component.compare) _ (components a) (components b)

theorem order_eq_iff {a b : String} : order a b = .eq ↔ same a b = true := by
  rw [same_iff]
  refine ⟨@Std.LawfulEqCmp.eq_of_compare _ (List.compareLex Component.compare) _ _ _, ?_⟩
  intro equal
  rw [order, equal]
  exact Std.ReflCmp.compare_self

theorem le_iff {a b : String} : le a b = true ↔ (order a b).isLE = true := by
  rw [le, compareComponents_eq, order]
  cases List.compareLex Component.compare (components a) (components b) <;> decide

theorem le_trans {a b c : String} (first : le a b = true) (second : le b c = true) :
    le a c = true := by
  rw [le_iff] at first second ⊢
  exact @Std.TransCmp.isLE_trans _ (List.compareLex Component.compare) _ _ (components b) _
    first second

theorem le_total (a b : String) : (le a b || le b a) = true := by
  rw [Bool.or_eq_true, le_iff, le_iff, order_swap b a]
  cases order a b <;> decide

/-- Two spellings stand at the same place if they are the same path. -/
theorem le_antisymm_iff {a b : String} :
    (le a b = true ∧ le b a = true) ↔ same a b = true := by
  rw [le_iff, le_iff, order_swap b a, ← order_eq_iff]
  cases order a b <;> decide

theorem compareLex_append (front one two : List Component) :
    List.compareLex Component.compare (front ++ one) (front ++ two) =
      List.compareLex Component.compare one two := by
  induction front with
  | nil => rfl
  | cons part rest ih =>
    have self : Component.compare part part = .eq :=
      @Std.ReflCmp.compare_self _ Component.compare _ part
    rw [List.cons_append, List.cons_append, List.compareLex_cons_cons, self, ih]
    rfl

/-- A path that means the same wherever it is looked up from. -/
structure Plain (path : String) : Prop where
  relative : isAbsolute path = false
  /-- It does not start with a `.`. -/
  direct : (components path).head? ≠ some .here

variable {base first second : String}

theorem Plain.components_join (plain : Plain first) (named : base ≠ "") :
    components (join base first) = components base ++ components first := by
  rw [Path.components_join plain.relative named, inner_eq_components plain.relative plain.direct]

theorem same_join (one : Plain first) (two : Plain second) (named : base ≠ "") :
    same (join base first) (join base second) = same first second := by
  rw [Bool.eq_iff_iff, same_iff, same_iff, one.components_join named, two.components_join named,
    List.append_cancel_left_eq]

theorem le_join (one : Plain first) (two : Plain second) (named : base ≠ "") :
    le (join base first) (join base second) = le first second := by
  rw [Bool.eq_iff_iff, le_iff, le_iff, order, order, one.components_join named,
    two.components_join named, compareLex_append]

end Path

end StyleMonitor
