import RunAlexDb.Lib.TotalPreorders
import RunAlexDb.Model.Concrete
import RunAlexDb.Query.OrderedRows

/-!
# ValueOrders — the comparison of values and the comparison of ORDER BY

Both compare two integers as numbers and any other two as texts. On a set that is an
order exactly when no text stands across two integers: 9 is less than 10, but the
text `10` is less than the text `5`, and that less than the text `9`.

Main result: `orders_iff`.
-/

namespace RunAlexDb

open Text Platform TotalPreorders

-- ---------------------------------------------------------------------------
-- Integers as numbers, the rest as text
-- ---------------------------------------------------------------------------

theorem cmpInt64_eq_compare (a b : Int64) : cmpInt64 a b = compare a.toInt b.toInt := by
  unfold cmpInt64
  rw [Int.compare_eq_ite_lt]
  simp only [Int64.lt_iff_toInt_lt]

instance transCmp_cmpInt64 : Std.TransCmp cmpInt64 := by
  have hEq : cmpInt64 = fun a b => compare a.toInt b.toInt := funext₂ cmpInt64_eq_compare
  rw [hEq]
  exact transCmp_key Int64.toInt

theorem cmpInt64_ne_gt {a b : Int64} : cmpInt64 a b ≠ .gt ↔ a ≤ b := by
  rw [cmpInt64_eq_compare, Int64.le_iff_toInt_le]
  exact Ordering.isLE_iff_ne_gt.symm.trans Int.isLE_compare

/-- Two texts, neither of them after the other. -/
theorem eq_of_cmpStr {s t : Str} (hst : cmpStr s t ≠ .gt) (hts : cmpStr t s ≠ .gt) : s = t :=
  Std.LawfulEqCmp.eq_of_compare
    ((totalPreorderOn_of_transCmp cmpStr Set.univ).eq_of_ne_gt trivial trivial hst hts)

section Orders

variable [Platform]

def Value.int? : Value → Option Int64
  | .int i => some i
  | _ => none

/-- Integers, texts, bytes and NULL. -/
def Value.NotFloat (v : Value) : Prop := ∀ f, v ≠ .float f

/-- By what is displayed, NULL first. -/
def cmpDisplay (a b : Value) : Ordering := cmpCell a.toDisplay b.toDisplay

instance : Std.TransCmp cmpDisplay := transCmp_key Value.toDisplay

/-- Without floats two integers are compared as numbers, any other two values by what
they are displayed as, NULL first. -/
theorem valuesCmp_eq {a b : Value} (ha : a.NotFloat) (hb : b.NotFloat) :
    valuesCmp a b = byNumber Value.int? cmpInt64 cmpDisplay a b := by
  cases a with
  | float f => exact absurd rfl (ha f)
  | null => cases b <;> rfl
  | int i =>
    cases b with
    | float f => exact absurd rfl (hb f)
    | null => rfl
    | int j => rfl
    | text s => rfl
    | bytes s => rfl
  | text t =>
    cases b with
    | float f => exact absurd rfl (hb f)
    | null => rfl
    | int j => rfl
    | text s => rfl
    | bytes s => rfl
  | bytes t =>
    cases b with
    | float f => exact absurd rfl (hb f)
    | null => rfl
    | int j => rfl
    | text s => rfl
    | bytes s => rfl

/-- What a text or a string of bytes is displayed as. -/
def Value.DisplaysAs (v : Value) (t : Str) : Prop := v = .text t ∨ ∃ b, v = .bytes b ∧ t = hexEncode b

/-- No text or bytes stand across two integers: from what the greater one is displayed as
to what the smaller one is. -/
def NoTextAcross (S : Set Value) : Prop :=
  ∀ x y : Int64, Value.int x ∈ S → Value.int y ∈ S → x < y → ∀ v ∈ S, ∀ t, v.DisplaysAs t →
    ¬(cmpStr (i64ToString y) t ≠ .gt ∧ cmpStr t (i64ToString x) ≠ .gt)

/-- No string without a number stands across two with numbers, strictly between a string
and one whose number is no greater. -/
def NoWordAcross (T : Set Str) : Prop :=
  ∀ a ∈ T, ∀ b ∈ T, ∀ x y, parseI64 a = some x → parseI64 b = some y → x ≤ y →
    ∀ t ∈ T, parseI64 t = none → ¬(cmpStr b t = .lt ∧ cmpStr t a = .lt)

-- ---------------------------------------------------------------------------
-- Values
-- ---------------------------------------------------------------------------

/-- A value that is no integer and stands after one is displayed as a text. -/
theorem exists_displaysAs {v : Value} {s : Str} (hFloat : v.NotFloat) (hInt : v.int? = none)
    (h : cmpCell (some s) v.toDisplay ≠ .gt) : ∃ t, v.DisplaysAs t ∧ v.toDisplay = some t := by
  cases v with
  | null => exact absurd rfl h
  | int i => exact nomatch hInt
  | float f => exact absurd rfl (hFloat f)
  | text t => exact ⟨t, .inl rfl, rfl⟩
  | bytes b => exact ⟨hexEncode b, .inr ⟨b, rfl, rfl⟩, rfl⟩

theorem toDisplay_of_displaysAs {v : Value} {t : Str} (h : v.DisplaysAs t) :
    v.toDisplay = some t ∧ v.int? = none := by
  rcases h with rfl | ⟨b, rfl, rfl⟩
  · exact ⟨rfl, rfl⟩
  · exact ⟨rfl, rfl⟩

theorem noneAcross_values {S : Set Value} (hFloat : ∀ v ∈ S, v.NotFloat) :
    NoneAcross Value.int? cmpInt64 cmpDisplay S ↔ NoTextAcross S := by
  constructor
  · rintro h x y hx hy hLt v hv t ht ⟨hBelow, hAbove⟩
    obtain ⟨hDisplay, hInt⟩ := toDisplay_of_displaysAs ht
    have hSame := h (.int x) hx (.int y) hy v hv x y rfl rfl hInt
    unfold cmpDisplay at hSame
    rw [hDisplay] at hSame
    have hEq := (hSame (cmpInt64_ne_gt.2 (Int64.le_of_lt hLt)) hBelow hAbove).1
    have hLess : cmpInt64 x y = .lt := if_pos hLt
    exact nomatch hLess.symm.trans hEq
  · intro h a ha b hb v hv x y hx hy hInt hLe hBelow hAbove
    have hOf : ∀ {w : Value} {n : Int64}, w.int? = some n → w = .int n := by
      intro w n hw
      cases w with
      | int i => exact congrArg Value.int (Option.some.inj hw)
      | null => exact nomatch hw
      | float f => exact nomatch hw
      | text t => exact nomatch hw
      | bytes b => exact nomatch hw
    obtain rfl := hOf hx
    obtain rfl := hOf hy
    obtain ⟨t, ht, hDisplay⟩ := exists_displaysAs (hFloat v hv) hInt hBelow
    unfold cmpDisplay at hBelow hAbove ⊢
    rw [hDisplay] at hBelow hAbove ⊢
    rcases Int64.lt_or_eq_of_le (cmpInt64_ne_gt.1 hLe) with hLt | rfl
    · exact absurd ⟨hBelow, hAbove⟩ (h x y ha hb hLt v hv t ht)
    · obtain rfl := eq_of_cmpStr hBelow hAbove
      exact ⟨Std.ReflCmp.compare_self, Std.ReflCmp.compare_self, Std.ReflCmp.compare_self⟩

theorem valuesCmp_iff {S : Set Value} (hFloat : ∀ v ∈ S, v.NotFloat) :
    TotalPreorderOn valuesCmp S ↔ NoTextAcross S := by
  have hEq : ∀ a ∈ S, ∀ b ∈ S, valuesCmp a b =
      byNumber Value.int? cmpInt64 cmpDisplay a b :=
    fun a ha b hb => valuesCmp_eq (hFloat a ha) (hFloat b hb)
  rw [← noneAcross_values hFloat, ← totalPreorderOn_byNumber_iff]
  constructor
  · intro h
    exact h.congr fun a ha b hb => (hEq a ha b hb).symm
  · intro h
    exact h.congr hEq

-- ---------------------------------------------------------------------------
-- Strings
-- ---------------------------------------------------------------------------

theorem cmpIntOrText_eq : cmpIntOrText = byNumber parseI64 cmpInt64 cmpStr := by
  funext a b
  unfold cmpIntOrText byNumber
  cases parseI64 a <;> cases parseI64 b <;> rfl

theorem noneAcross_strings {T : Set Str} :
    NoneAcross parseI64 cmpInt64 cmpStr T ↔ NoWordAcross T := by
  constructor
  · rintro h a ha b hb x y hx hy hLe t ht hNone ⟨hBelow, hAbove⟩
    have hSame := h a ha b hb t ht x y hx hy hNone (cmpInt64_ne_gt.2 hLe) (by rw [hBelow]; nofun)
      (by rw [hAbove]; nofun)
    exact nomatch hBelow.symm.trans hSame.2.1
  · intro h a ha b hb t ht x y hx hy hNone hLe hBelow hAbove
    -- a string with a number is no string without one
    have hLess : ∀ {s u : Str}, parseI64 s ≠ parseI64 u → cmpStr s u ≠ .gt → cmpStr s u = .lt := by
      intro s u hDiffer hLe
      cases hcmp : cmpStr s u with
      | lt => rfl
      | eq => exact absurd (congrArg parseI64 (Std.LawfulEqCmp.eq_of_compare hcmp)) hDiffer
      | gt => exact absurd hcmp hLe
    have hb' : cmpStr b t = .lt := hLess (by rw [hy, hNone]; nofun) hBelow
    have ha' : cmpStr t a = .lt := hLess (by rw [hx, hNone]; nofun) hAbove
    exact absurd ⟨hb', ha'⟩ (h a ha b hb x y hx hy (cmpInt64_ne_gt.1 hLe) t ht hNone)

theorem cmpIntOrText_iff {T : Set Str} : TotalPreorderOn cmpIntOrText T ↔ NoWordAcross T := by
  rw [cmpIntOrText_eq, totalPreorderOn_byNumber_iff, noneAcross_strings]

-- ---------------------------------------------------------------------------
-- Results
-- ---------------------------------------------------------------------------

/-- The two comparisons are total preorders exactly where nothing stands across. -/
theorem orders_iff (S : Set Value) (T : Set Str) (hFloat : ∀ v ∈ S, v.NotFloat) :
    (TotalPreorderOn valuesCmp S ↔ NoTextAcross S) ∧
      (TotalPreorderOn cmpIntOrText T ↔ NoWordAcross T) :=
  ⟨valuesCmp_iff hFloat, cmpIntOrText_iff⟩

end Orders

local instance mixedPlatform : Platform := tablePlatform []

/-- Two integers and a text that stands across them. -/
def nineTenFive : Set Value := {v | v = .int 9 ∨ v = .int 10 ∨ v = .text "5"}

def nineTenWord : Set Str := {s | s = ("9" : Str) ∨ s = ("10" : Str) ∨ s = ("5a" : Str)}

theorem notFloat_nineTenFive : ∀ v ∈ nineTenFive, v.NotFloat := by
  rintro v (rfl | rfl | rfl) f <;> nofun

theorem orders_iff_nineTen :
    (TotalPreorderOn valuesCmp nineTenFive ↔ NoTextAcross nineTenFive) ∧
      (TotalPreorderOn cmpIntOrText nineTenWord ↔ NoWordAcross nineTenWord) :=
  orders_iff nineTenFive nineTenWord notFloat_nineTenFive

/-- 9 is less than 10, that less than the text 5 and that less than 9; as strings the
same goes for 5a. -/
theorem not_orders :
    ¬(∀ S : Set Value, (∀ v ∈ S, v.NotFloat) → TotalPreorderOn valuesCmp S) ∧
      ¬∀ T : Set Str, TotalPreorderOn cmpIntOrText T := by
  constructor
  · intro hAll
    have hOrder := hAll nineTenFive notFloat_nineTenFive
    have hCycle := hOrder.eq_of_cycle (.inl rfl) (.inr (.inl rfl)) (.inr (.inr rfl)) (by decide)
      (by decide) (by decide)
    exact absurd hCycle (by decide)
  · intro hAll
    have hOrder := hAll nineTenWord
    have hCycle := hOrder.eq_of_cycle (.inl rfl) (.inr (.inl rfl)) (.inr (.inr rfl)) (by decide)
      (by decide) (by decide)
    exact absurd hCycle (by decide)

end RunAlexDb
