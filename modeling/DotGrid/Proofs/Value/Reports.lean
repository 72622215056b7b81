import DotGrid.Proofs.Decimal.Text
import DotGrid.Proofs.Text.Quoted
import DotGrid.Proofs.Value.Mismatches

/-!
# Reports tell faults apart

A fault is reported by the name of its class and its description. Faults of one class have descriptions that differ,
also where these show a name, a number, a quoted text or a function, so that it is the same to compare reports or
faults (`Fault.report_injective`). A derived function is shown with its place in memory, and different functions have
different places.
-/

namespace DotGrid

open Text

/-! ## Functions -/

namespace Builtin

variable {f g : Builtin} {address : Builtin → Nat}

theorem name_injective : Function.Injective name := by
  have hall : ∀ f ∈ all, ∀ g ∈ all, f.name = g.name → f = g := by decide
  exact fun f g => hall f f.mem_all g g.mem_all

theorem space_not_mem (f : Builtin) : ' ' ∉ f.definedName.toList := by
  cases f <;> decide

theorem shown_primitive (h : f.isPrimitive = true) : f.shown address = "<built-in function " ++ f.name ++ ">" :=
  if_pos h

theorem shown_derived (h : f.isPrimitive = false) : f.shown address =
    "<function " ++ (f.definedName ++ String.singleton ' ' ++
      ("at 0x" ++ String.ofList (Nat.toDigits 16 (address f)) ++ ">")) := by
  rw [shown, h, if_neg Bool.false_ne_true]
  simp only [String.append_assoc]
  rfl

theorem shown_primitive_ne_derived (hf : f.isPrimitive = true) (hg : g.isPrimitive = false) :
    f.shown address ≠ g.shown address := by
  rw [shown_primitive hf, shown_derived hg, String.append_assoc]
  exact Before.append_ne (by decide) _ _

/-- A function is shown in a way of its own. -/
theorem shown_injective (haddress : Function.Injective address) : Function.Injective (shown address) := by
  intro f g h
  cases hf : f.isPrimitive <;> cases hg : g.isPrimitive
  · rw [shown_derived hf, shown_derived hg, String.append_right_inj] at h
    obtain ⟨-, hplace⟩ := eq_of_marked f.space_not_mem g.space_not_mem h
    rw [String.append_left_inj, String.append_right_inj] at hplace
    exact haddress (toDigits_injective (by decide) (by decide) (String.ofList_inj.mp hplace))
  · exact absurd h.symm (shown_primitive_ne_derived hg hf)
  · exact absurd h (shown_primitive_ne_derived hf hg)
  · rw [shown_primitive hf, shown_primitive hg, String.append_left_inj, String.append_right_inj] at h
    exact name_injective h

end Builtin

/-! ## Faults -/

namespace Fault

variable {a b : Fault} {address : Builtin → Nat}

theorem framed_inj {front back s t : String} (h : some (front ++ s ++ back) = some (front ++ t ++ back)) : s = t := by
  rw [Option.some_inj, String.append_left_inj, String.append_right_inj] at h
  exact h

/-! ### Other classes than that of the mismatches -/

theorem description?_eq_message? (h : a.kind ≠ "TypeError") : a.description? address = a.message? := by
  cases a <;> first | rfl | exact absurd rfl h

theorem eq_of_message_eq (hkind : a.kind = b.kind) (hmessage : a.message? = b.message?) (h : a.kind ≠ "TypeError") :
    a = b := by
  cases a <;> cases b <;> try simp [kind] at hkind
  case unresolvedName.unresolvedName => exact congrArg _ (framed_inj hmessage)
  case notCallable.notCallable value value' =>
    have htext : value.text = value'.text := (String.append_left_inj _).mp (Option.some_inj.mp hmessage)
    rw [Number.text_injective htext]
  case unknownNode.unknownNode => exact congrArg _ ((String.append_right_inj _).mp (Option.some_inj.mp hmessage))
  case unknownOperator.unknownOperator => exact congrArg _ (Text.quoted_injective (Option.some_inj.mp hmessage))
  case divisionByZero.divisionByZero ofReals ofReals' =>
    cases ofReals <;> cases ofReals' <;> first | rfl | exact absurd hmessage (by decide)
  -- the other faults have no parts
  all_goals first | rfl | exact absurd rfl h | exact absurd hmessage (by decide)

/-! ### The class of the mismatches -/

theorem cases_of_typeError (h : a.kind = "TypeError") :
    a = functionAsNumber ∨ (∃ f, a = functionAsResult f) ∨ ∃ m, a = mismatch m := by
  cases a with
  | functionAsNumber => exact .inl rfl
  | functionAsResult f => exact .inr (.inl ⟨f, rfl⟩)
  | mismatch m => exact .inr (.inr ⟨m, rfl⟩)
  | _ => exact absurd h (by simp [kind])

theorem description?_asNumber :
    functionAsNumber.description? address = some ("cannot convert a function to a number" ++ "") := rfl

theorem description?_asResult (f : Builtin) :
    (functionAsResult f).description? address =
      some ("expression evaluated to " ++ (f.shown address ++ ", not a number")) := by
  rw [← String.append_assoc]
  rfl

theorem asNumber_ne_asResult (f : Builtin) :
    functionAsNumber.description? address ≠ (functionAsResult f).description? address := by
  rw [description?_asNumber, description?_asResult, Ne, Option.some_inj]
  exact Before.append_ne (by decide) _ _

theorem mismatch_ne_asNumber (m : Mismatch) :
    (mismatch m).description? address ≠ functionAsNumber.description? address := by
  rw [description?_asNumber]
  exact Mismatch.description?_ne_functionOpening_append (by decide) _

theorem mismatch_ne_asResult (m : Mismatch) (f : Builtin) :
    (mismatch m).description? address ≠ (functionAsResult f).description? address := by
  rw [description?_asResult]
  exact Mismatch.description?_ne_functionOpening_append (by decide) _

theorem eq_of_typeError (haddress : Function.Injective address) (ha : a.kind = "TypeError") (hb : b.kind = "TypeError")
    (h : a.description? address = b.description? address) : a = b := by
  obtain rfl | ⟨f, rfl⟩ | ⟨m, rfl⟩ := cases_of_typeError ha <;>
    obtain rfl | ⟨g, rfl⟩ | ⟨m', rfl⟩ := cases_of_typeError hb
  · rfl
  · exact absurd h (asNumber_ne_asResult g)
  · exact absurd h.symm (mismatch_ne_asNumber m')
  · exact absurd h.symm (asNumber_ne_asResult f)
  · exact congrArg _ (Builtin.shown_injective haddress (framed_inj h))
  · exact absurd h.symm (mismatch_ne_asResult m' f)
  · exact absurd h (mismatch_ne_asNumber m)
  · exact absurd h (mismatch_ne_asResult m g)
  · exact congrArg _ (Mismatch.eq_of_description_eq h)

/-- **Faults with the same report are the same.** -/
theorem report_injective (haddress : Function.Injective address) : Function.Injective (report address) := by
  intro a b h
  obtain ⟨hkind, hdescription⟩ := Prod.mk.inj h
  by_cases ha : a.kind = "TypeError"
  · exact eq_of_typeError haddress ha (hkind ▸ ha) hdescription
  · have hb : b.kind ≠ "TypeError" := hkind ▸ ha
    rw [description?_eq_message? ha, description?_eq_message? hb] at hdescription
    exact eq_of_message_eq hkind hdescription ha

end Fault

end DotGrid
