/-
Laws of loose comparison.

Equality and order are defined apart.  Both take a value for a text where it is one, or is joined
to one, and for a number otherwise, so on single values equality is what the order calls equal
(`looseEq_eq_order`).  They part in two places.  `null` is ordered as zero but equals itself alone.
And two lists or two objects are compared as they are, but ordered by their texts, in which all
objects look alike and a list looks like any other with the same text between its commas.

A list has one text, so equal lists stand on one place of the order but for zeros: they are equal
whatever their signs, and the texts show the signs (`joinedText_eq_iff`).
-/
import FlowGraph.Condition.Basic
import FlowGraph.Proofs.Decimal.Integers
import FlowGraph.Proofs.Decimal.Order
import FlowGraph.Proofs.Json.Legal
import Mathlib.Data.String.Basic

namespace FlowGraph.Json

open Decimal

variable {a b : Json}

/-! ### Texts and numbers -/

/-- The text as which a value is compared. -/
def text? (j : Json) : Option String :=
  match j.plain with
  | .str s => some s
  | _ => none

/-- Two texts are ordered as texts, everything else as numbers. -/
theorem looseOrder_eq (a b : Json) :
    looseOrder a b = match text? a, text? b with
      | some s, some t => some (compare s t)
      | _, _ => floatOrder a.looseNumber b.looseNumber := by
  rw [looseOrder, text?, text?, looseNumber, looseNumber]
  cases a.plain <;> cases b.plain <;> rfl

theorem looseOrder_swap (a b : Json) :
    looseOrder b a = (looseOrder a b).map Ordering.swap := by
  rw [looseOrder_eq, looseOrder_eq]
  cases text? a <;> cases text? b
  case some.some s t => exact congrArg some Std.OrientedCmp.eq_swap
  all_goals exact floatOrder_swap _ _

theorem isFinite_toFloat {n : Number} (hn : (Json.number n).Legal) : n.toFloat.isFinite = true := by
  cases n with
  | int i => exact isFinite_ofInt hn
  | float x => exact hn

/-- What is no text is a number, not a value that is no number. -/
theorem isFinite_looseNumber (ha : a.Legal) (htext : text? a = none) :
    a.looseNumber.isFinite = true := by
  cases a with
  | null => rfl
  | bool b => cases b <;> rfl
  | number n => exact isFinite_toFloat ha
  | str s => cases htext
  | arr items => cases htext
  | obj fields => cases htext

theorem looseOrder_self (ha : a.Legal) : looseOrder a a = some .eq := by
  rw [looseOrder_eq]
  cases htext : text? a with
  | none => exact floatOrder_self (isFinite_looseNumber ha htext)
  | some s => exact congrArg some (compare_eq_iff_eq.mpr rfl)

/-- Plain values are equal if the order calls them equal. -/
theorem plainEq_eq_order (x y : Json) :
    plainEq x y = ((match x, y with
      | .str s, .str t => some (textOrder s t)
      | x, y => floatOrder x.plainNumber y.plainNumber) == some .eq) := by
  cases x with
  | str s =>
      cases y with
      | str t =>
          show (s == t) = (some (compare s t) == some .eq)
          rw [Bool.eq_iff_iff, beq_iff_eq, beq_iff_eq, Option.some_inj, compare_eq_iff_eq]
      | _ => exact beq_eq_floatOrder _ _
  | bool a =>
      cases y with
      | bool b => cases a <;> cases b <;> rfl
      | _ => exact beq_eq_floatOrder _ _
  | _ => cases y <;> exact beq_eq_floatOrder _ _

/-! Equality has three rules: one for `null`, one for lists and objects, and one for the rest. -/

theorem looseEq_null (h : (a.isNull || b.isNull) = true) :
    a.looseEq b = (a.isNull && b.isNull) := by
  rw [looseEq, if_pos h]

theorem looseEq_composite (h : (a.isComposite && b.isComposite) = true) :
    a.looseEq b = a.same b := by
  have hnull : (a.isNull || b.isNull) = false := by
    cases a <;> cases b <;> first | rfl | cases h
  rw [looseEq, hnull, if_neg Bool.false_ne_true, if_pos h]

theorem looseEq_eq_order (hnull : (a.isNull || b.isNull) = false)
    (hcomposite : (a.isComposite && b.isComposite) = false) :
    a.looseEq b = (looseOrder a b == some .eq) := by
  rw [looseEq, hnull, hcomposite, looseOrder]
  exact plainEq_eq_order _ _

/-! ### Lists and objects as they are -/

mutual

theorem same_symm : ∀ a b : Json, a.same b = b.same a
  | .null, b => by cases b <;> rfl
  | .bool _, b => by
      cases b with
      | bool _ => exact Bool.beq_comm
      | _ => rfl
  | .str _, b => by
      cases b with
      | str _ => exact Bool.beq_comm
      | _ => rfl
  | .number (.int _), b => by
      cases b with
      | number n => cases n with
        | int _ => exact Bool.beq_comm
        | float _ => rfl
      | _ => rfl
  | .number (.float x), b => by
      cases b with
      | number n => cases n with
        | int _ => rfl
        | float y =>
          show (x == y) = (y == x)
          rw [beq_eq_floatOrder, beq_eq_floatOrder, floatOrder_swap]
          cases floatOrder y x with
          | none => rfl
          | some o => cases o <;> rfl
      | _ => rfl
  | .arr as, b => by
      cases b with
      | arr bs => exact sameItems_symm as bs
      | _ => rfl
  | .obj as, b => by
      cases b with
      | obj bs => exact sameFields_symm as bs
      | _ => rfl

theorem sameItems_symm : ∀ as bs : List Json, sameItems as bs = sameItems bs as
  | [], bs => by cases bs <;> rfl
  | a :: as, [] => rfl
  | a :: as, b :: bs => by rw [sameItems, sameItems, same_symm a b, sameItems_symm as bs]

theorem sameFields_symm : ∀ as bs : List (String × Json), sameFields as bs = sameFields bs as
  | [], bs => by cases bs <;> rfl
  | (k, a) :: as, [] => rfl
  | (k, a) :: as, (l, b) :: bs => by
      rw [sameFields, sameFields, same_symm a b, sameFields_symm as bs, Bool.beq_comm (a := k)]

end

mutual

theorem same_self : ∀ {j : Json}, j.Legal → j.same j = true
  | .null, _ => rfl
  | .bool _, _ => beq_self_eq_true _
  | .str _, _ => beq_self_eq_true _
  | .number (.int _), _ => beq_self_eq_true _
  | .number (.float x), hx => by
      show (x == x) = true
      rw [beq_eq_floatOrder, floatOrder_self hx]
      rfl
  | .arr _, hj => sameItems_self hj
  | .obj _, hj => sameFields_self hj.2

theorem sameItems_self : ∀ {items : List Json}, LegalItems items → sameItems items items = true
  | [], _ => rfl
  | _ :: _, h => Bool.and_eq_true_iff.mpr ⟨same_self h.1, sameItems_self h.2⟩

theorem sameFields_self : ∀ {fields : List (String × Json)}, LegalFields fields →
    sameFields fields fields = true
  | [], _ => rfl
  | _ :: _, h => Bool.and_eq_true_iff.mpr
      ⟨Bool.and_eq_true_iff.mpr ⟨beq_self_eq_true _, same_self h.1⟩, sameFields_self h.2⟩

end

/-! ### Zeros in texts -/

/-- In two values zeros of different sign stand at one place, which is not inside an object. -/
inductive Opposed : Json → Json → Prop
  | less : Opposed (.number (.float (-0.0))) (.number (.float 0.0))
  | more : Opposed (.number (.float 0.0)) (.number (.float (-0.0)))
  | item {as bs : List Json} {i : Nat} {a b : Json} (ha : as[i]? = some a) (hb : bs[i]? = some b)
      (h : Opposed a b) : Opposed (.arr as) (.arr bs)

section Opposed

variable {as bs : List Json} {u v : List Char}

theorem not_opposed_nil : ¬ Opposed (.arr []) (.arr bs) := fun h => by
  cases h with
  | item ha hb h => cases ha

theorem opposed_cons_iff :
    Opposed (.arr (a :: as)) (.arr (b :: bs)) ↔ Opposed a b ∨ Opposed (.arr as) (.arr bs) := by
  constructor
  · intro h
    cases h with
    | @item _ _ i _ _ ha hb h =>
        cases i with
        | zero =>
            rw [← Option.some.inj ha, ← Option.some.inj hb] at h
            exact Or.inl h
        | succ i => exact Or.inr (.item ha hb h)
  · rintro (h | h)
    · exact .item (i := 0) rfl rfl h
    · cases h with
      | @item _ _ i _ _ ha hb h => exact .item (i := i + 1) ha hb h

/-- Equal numbers of one kind are the same, or they are zeros of different sign. -/
theorem eq_or_opposed {m n : Number} (hm : (Json.number m).Legal) (hn : (Json.number n).Legal)
    (h : m.same n = true) : m = n ∨ Opposed (.number m) (.number n) := by
  cases m with
  | int i =>
      cases n with
      | int j => exact Or.inl (congrArg _ (beq_iff_eq.mp h))
      | float y => cases h
  | float x =>
      cases n with
      | int j => cases h
      | float y =>
          have horder : floatOrder x y = some .eq :=
            beq_iff_eq.mp ((beq_eq_floatOrder x y).symm.trans h)
          rcases eq_of_floatOrder hm hn horder with rfl | ⟨rfl, rfl⟩ | ⟨rfl, rfl⟩
          · exact Or.inl rfl
          · exact Or.inr .more
          · exact Or.inr .less

/-- The sign of a zero comes first in its text. -/
theorem ne_of_opposed {m n : Number} (h : Opposed (.number m) (.number n)) :
    (numberText m).toList ++ u ≠ (numberText n).toList ++ v := by
  have hplus : (numberText (.float 0.0)).toList = ['0', '.', '0'] := by decide +kernel
  have hminus : (numberText (.float (-0.0))).toList = ['-', '0', '.', '0'] := by decide +kernel
  intro heq
  cases h with
  | less =>
      rw [hplus, hminus] at heq
      exact absurd (List.cons.inj heq).1 (by decide)
  | more =>
      rw [hplus, hminus] at heq
      exact absurd (List.cons.inj heq).1 (by decide)

theorem not_opposed_self {m : Number} : ¬ Opposed (.number m) (.number m) := fun h =>
  ne_of_opposed (u := []) (v := []) h rfl

/-- The text of the items behind the first one, with a comma in front of each. -/
def followingText : List Json → List Char
  | [] => []
  | j :: rest => ',' :: ((joinedText j).toList ++ followingText rest)

theorem toList_joinedText_arr (j : Json) : ∀ items : List Json,
    (joinedText (.arr (j :: items))).toList = (joinedText j).toList ++ followingText items
  | [] => by
      rw [joinedText, String.toList_intercalate]
      simp [joinedTexts, followingText]
  | k :: items => by
      have ih := toList_joinedText_arr k items
      rw [joinedText, String.toList_intercalate] at ih ⊢
      rw [joinedTexts, joinedTexts, List.map_cons, List.map_cons, List.intercalate_cons_cons,
        followingText, ← ih]
      simp [joinedTexts]

mutual

/-- Equal values of which the texts go on alike: no zeros of different sign are seen in them. -/
theorem joinedText_cancel : ∀ {a b : Json}, a.Legal → b.Legal → a.same b = true →
    ∀ {u v : List Char}, (joinedText a).toList ++ u = (joinedText b).toList ++ v →
      ¬ Opposed a b ∧ u = v
  | .null, b, _, _, hsame, u, v, h => by
      cases b with
      | null => exact ⟨nofun, h⟩
      | _ => cases hsame
  | .bool _, b, _, _, hsame, u, v, h => by
      cases b with
      | bool _ =>
          obtain rfl := beq_iff_eq.mp hsame
          exact ⟨nofun, List.append_cancel_left h⟩
      | _ => cases hsame
  | .str _, b, _, _, hsame, u, v, h => by
      cases b with
      | str _ =>
          obtain rfl := beq_iff_eq.mp hsame
          exact ⟨nofun, List.append_cancel_left h⟩
      | _ => cases hsame
  | .number m, b, ha, hb, hsame, u, v, h => by
      cases b with
      | number n =>
          rcases eq_or_opposed ha hb hsame with rfl | hopposed
          · exact ⟨not_opposed_self, List.append_cancel_left h⟩
          · exact absurd h (ne_of_opposed hopposed)
      | _ => cases hsame
  | .arr [], b, _, _, hsame, u, v, h => by
      cases b with
      | arr bs => cases bs with
        | nil => exact ⟨not_opposed_nil, h⟩
        | cons _ _ => cases hsame
      | _ => cases hsame
  | .arr (a :: as), b, ha, hb, hsame, u, v, h => by
      cases b with
      | arr bs => cases bs with
        | nil => cases hsame
        | cons b bs =>
            obtain ⟨hab, habs⟩ := Bool.and_eq_true_iff.mp hsame
            rw [toList_joinedText_arr, toList_joinedText_arr, List.append_assoc,
              List.append_assoc] at h
            obtain ⟨hhead, hrest⟩ := joinedText_cancel ha.1 hb.1 hab h
            obtain ⟨htail, huv⟩ := followingText_cancel ha.2 hb.2 habs hrest
            exact ⟨fun ho => (opposed_cons_iff.mp ho).elim hhead htail, huv⟩
      | _ => cases hsame
  | .obj _, b, _, _, hsame, u, v, h => by
      cases b with
      | obj _ => exact ⟨nofun, List.append_cancel_left h⟩
      | _ => cases hsame

theorem followingText_cancel : ∀ {as bs : List Json}, LegalItems as → LegalItems bs →
    sameItems as bs = true → ∀ {u v : List Char},
      followingText as ++ u = followingText bs ++ v → ¬ Opposed (.arr as) (.arr bs) ∧ u = v
  | [], [], _, _, _, u, v, h => ⟨not_opposed_nil, h⟩
  | a :: as, b :: bs, ha, hb, hsame, u, v, h => by
      obtain ⟨hab, habs⟩ := Bool.and_eq_true_iff.mp hsame
      rw [followingText, followingText, List.cons_append, List.cons_append, List.append_assoc,
        List.append_assoc] at h
      have hbehind := (List.cons.inj h).2
      obtain ⟨hhead, hrest⟩ := joinedText_cancel ha.1 hb.1 hab hbehind
      obtain ⟨htail, huv⟩ := followingText_cancel ha.2 hb.2 habs hrest
      exact ⟨fun ho => (opposed_cons_iff.mp ho).elim hhead htail, huv⟩
  | [], _ :: _, _, _, hsame, _, _, _ => by cases hsame
  | _ :: _, [], _, _, hsame, _, _, _ => by cases hsame

end

mutual

theorem joinedText_eq : ∀ {a b : Json}, a.Legal → b.Legal → a.same b = true → ¬ Opposed a b →
    joinedText a = joinedText b
  | .null, b, _, _, hsame, _ => by
      cases b with
      | null => rfl
      | _ => cases hsame
  | .bool _, b, _, _, hsame, _ => by
      cases b with
      | bool _ => rw [beq_iff_eq.mp hsame]
      | _ => cases hsame
  | .str _, b, _, _, hsame, _ => by
      cases b with
      | str _ => rw [beq_iff_eq.mp hsame]
      | _ => cases hsame
  | .number m, b, ha, hb, hsame, h => by
      cases b with
      | number n => rw [(eq_or_opposed ha hb hsame).resolve_right h]
      | _ => cases hsame
  | .arr as, b, ha, hb, hsame, h => by
      cases b with
      | arr bs => rw [joinedText, joinedText, joinedTexts_eq ha hb hsame h]
      | _ => cases hsame
  | .obj _, b, _, _, hsame, _ => by
      cases b with
      | obj _ => rfl
      | _ => cases hsame

theorem joinedTexts_eq : ∀ {as bs : List Json}, LegalItems as → LegalItems bs →
    sameItems as bs = true → ¬ Opposed (.arr as) (.arr bs) → joinedTexts as = joinedTexts bs
  | [], [], _, _, _, _ => rfl
  | a :: as, b :: bs, ha, hb, hsame, h => by
      obtain ⟨hab, habs⟩ := Bool.and_eq_true_iff.mp hsame
      rw [opposed_cons_iff, not_or] at h
      rw [joinedTexts, joinedTexts, joinedText_eq ha.1 hb.1 hab h.1,
        joinedTexts_eq ha.2 hb.2 habs h.2]
  | [], _ :: _, _, _, hsame, _ => by cases hsame
  | _ :: _, [], _, _, hsame, _ => by cases hsame

end

/-- **Equal values have one text unless zeros of different sign are seen in it.** -/
theorem joinedText_eq_iff (ha : a.Legal) (hb : b.Legal) (hsame : a.same b = true) :
    joinedText a = joinedText b ↔ ¬ Opposed a b := by
  refine ⟨fun h => ?_, joinedText_eq ha hb hsame⟩
  exact (joinedText_cancel (u := []) (v := []) ha hb hsame (by rw [h])).1

end Opposed

/-! ### Equality and order -/

theorem looseOrder_composite (ha : a.isComposite = true) (hb : b.isComposite = true) :
    looseOrder a b = some (compare (joinedText a) (joinedText b)) := by
  have htext : ∀ {j : Json}, j.isComposite = true → text? j = some (joinedText j) := by
    intro j hj
    cases j with
    | arr _ | obj _ => rfl
    | _ => cases hj
  rw [looseOrder_eq, htext ha, htext hb]

theorem Opposed.isComposite (h : Opposed a b) (ha : a.isComposite = true) :
    b.isComposite = true := by
  cases h with
  | less | more => cases ha
  | item _ _ _ => rfl

theorem looseEq_self (ha : a.Legal) : a.looseEq a = true := by
  cases hnull : (a.isNull || a.isNull) with
  | true => rw [looseEq_null hnull, Bool.and_self, ← Bool.or_self a.isNull, hnull]
  | false =>
      cases hcomposite : (a.isComposite && a.isComposite) with
      | true => rw [looseEq_composite hcomposite, same_self ha]
      | false =>
          rw [looseEq_eq_order hnull hcomposite, looseOrder_self ha]
          rfl

theorem looseEq_symm (a b : Json) : b.looseEq a = a.looseEq b := by
  have hnull' : (b.isNull || a.isNull) = (a.isNull || b.isNull) := Bool.or_comm ..
  have hcomposite' : (b.isComposite && a.isComposite) = (a.isComposite && b.isComposite) :=
    Bool.and_comm ..
  cases hnull : (a.isNull || b.isNull) with
  | true => rw [looseEq_null hnull, looseEq_null (hnull'.trans hnull), Bool.and_comm]
  | false =>
      cases hcomposite : (a.isComposite && b.isComposite) with
      | true =>
          rw [looseEq_composite hcomposite, looseEq_composite (hcomposite'.trans hcomposite),
            same_symm]
      | false =>
          rw [looseEq_eq_order hnull hcomposite,
            looseEq_eq_order (hnull'.trans hnull) (hcomposite'.trans hcomposite), looseOrder_swap]
          cases looseOrder a b with
          | none => rfl
          | some o => cases o <;> rfl

/-- Equal values stand on one place of the order, but for zeros of different sign in lists. -/
theorem order_of_looseEq (ha : a.Legal) (hb : b.Legal) (h : a.looseEq b = true) :
    looseOrder a b = some .eq ↔ ¬(a.isComposite = true ∧ Opposed a b) := by
  cases hnull : (a.isNull || b.isNull) with
  | true =>
      rw [looseEq_null hnull, Bool.and_eq_true_iff] at h
      cases a with
      | null =>
          cases b with
          | null => exact iff_of_true (looseOrder_self ha) fun hc => absurd hc.1 (by decide)
          | _ => cases h.2
      | _ => cases h.1
  | false =>
      cases hcomposite : (a.isComposite && b.isComposite) with
      | true =>
          rw [looseEq_composite hcomposite] at h
          obtain ⟨hca, hcb⟩ := Bool.and_eq_true_iff.mp hcomposite
          rw [looseOrder_composite hca hcb, Option.some_inj, compare_eq_iff_eq,
            joinedText_eq_iff ha hb h, not_and]
          exact ⟨fun hno _ => hno, fun hno => hno hca⟩
      | false =>
          rw [looseEq_eq_order hnull hcomposite, beq_iff_eq] at h
          refine iff_of_true h fun ⟨hca, hopposed⟩ => ?_
          rw [hca, hopposed.isComposite hca] at hcomposite
          cases hcomposite

/-- Values on one place of the order are equal, but for `null` and for lists and objects. -/
theorem looseEq_of_order (h : looseOrder a b = some .eq) :
    a.looseEq b = true ∨ a.isNull ≠ b.isNull ∨ (a.isComposite && b.isComposite) = true := by
  cases hnull : (a.isNull || b.isNull) with
  | true =>
      rw [looseEq_null hnull]
      generalize a.isNull = p, b.isNull = q at hnull ⊢
      cases p <;> cases q
      · cases hnull
      · exact Or.inr (Or.inl Bool.false_ne_true)
      · exact Or.inr (Or.inl Bool.false_ne_true.symm)
      · exact Or.inl rfl
  | false =>
      cases hcomposite : (a.isComposite && b.isComposite) with
      | true => exact Or.inr (Or.inr rfl)
      | false => exact Or.inl (by rw [looseEq_eq_order hnull hcomposite, h]; rfl)

theorem holds_both_iff :
    Operator.gte.holds a b = true ∧ Operator.lte.holds a b = true ↔ looseOrder a b = some .eq := by
  rw [Operator.holds, Operator.holds]
  cases looseOrder a b with
  | none => decide
  | some o => cases o <;> decide

/-- **Equality and order of values agree, but for `null`, for lists and objects that share a text,
and for zeros of different sign in lists.** -/
theorem equality_and_order (ha : a.Legal) (hb : b.Legal) :
    (a.looseEq a = true ∧ looseOrder a a = some .eq) ∧
      b.looseEq a = a.looseEq b ∧
      looseOrder b a = (looseOrder a b).map Ordering.swap ∧
      Operator.eq.holds a b = a.looseEq b ∧
      Operator.neq.holds a b = !Operator.eq.holds a b ∧
      Operator.gt.holds a b = Operator.lt.holds b a ∧
      Operator.gte.holds a b = Operator.lte.holds b a ∧
      ¬(Operator.gt.holds a b = true ∧ Operator.lt.holds a b = true) ∧
      (Operator.gte.holds a b = true ↔
        Operator.gt.holds a b = true ∨ looseOrder a b = some .eq) ∧
      (Operator.gte.holds a b = true ∧ Operator.lte.holds a b = true ↔
        looseOrder a b = some .eq) ∧
      (Operator.eq.holds a b = true →
        (Operator.gte.holds a b = true ∧ Operator.lte.holds a b = true ↔
          ¬(a.isComposite = true ∧ Opposed a b))) ∧
      (looseOrder a b = some .eq → Operator.eq.holds a b = true ∨ a.isNull ≠ b.isNull ∨
        (a.isComposite && b.isComposite) = true) := by
  have hswap := looseOrder_swap a b
  refine ⟨⟨looseEq_self ha, looseOrder_self ha⟩, looseEq_symm a b, hswap, rfl, rfl, ?gt, ?gte,
    ?both, ?either, holds_both_iff, ?equal, looseEq_of_order⟩
  case equal => exact fun h => holds_both_iff.trans (order_of_looseEq ha hb h)
  all_goals
    simp only [Operator.holds, hswap]
    cases looseOrder a b with
    | none => decide
    | some o => cases o <;> decide

/-- A list with a list in it. -/
def nested : Json := .arr [.null, .int 1, .arr [.str "x"]]

theorem equality_and_order_nested :
    nested.Legal ∧ (Json.str ",1,x").Legal ∧
      Operator.eq.holds nested (.str ",1,x") = true ∧
      Operator.gte.holds nested (.str ",1,x") = true ∧
      Operator.lte.holds nested (.str ",1,x") = true := by
  have hlegal : nested.Legal := ⟨trivial, rfl, ⟨trivial, trivial⟩, trivial⟩
  have heq : Operator.eq.holds nested (.str ",1,x") = true := by decide +kernel
  obtain ⟨-, -, -, -, -, -, -, -, -, -, hequal, -⟩ :=
    equality_and_order hlegal (b := .str ",1,x") trivial
  exact ⟨hlegal, trivial, heq, (hequal heq).mpr fun h => nomatch h.2⟩

/-- Two lists are equal, and the first one is greater than the second. -/
theorem equal_lists_apart :
    (Json.arr [.number (.float 0.0)]).Legal ∧ (Json.arr [.number (.float (-0.0))]).Legal ∧
      Operator.eq.holds (.arr [.number (.float 0.0)]) (.arr [.number (.float (-0.0))]) = true ∧
      Operator.gt.holds (.arr [.number (.float 0.0)]) (.arr [.number (.float (-0.0))]) = true ∧
      Operator.lte.holds (.arr [.number (.float 0.0)]) (.arr [.number (.float (-0.0))]) = false :=
  ⟨⟨rfl, trivial⟩, ⟨rfl, trivial⟩, by decide +kernel⟩

end FlowGraph.Json
