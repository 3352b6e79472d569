import OpenCollabEval.Python.Error

/-!
# Runs that may fail

A run reads items one after the other, and each step returns the next state or fails. What one step
preserves, of the state and of the items that were read, holds after every run that returns.
-/

namespace Python

variable {ε α σ : Type} {step : σ → α → Except ε σ} {items : List α} {s s' : σ}

/-- A property of the items that were read and of the state is preserved by a run. -/
theorem history_foldlM (P : List α → σ → Prop)
    (hstep : ∀ read a s s', P read s → step s a = .ok s' → P (read ++ [a]) s') (read : List α)
    (hstart : P read s) (h : items.foldlM step s = .ok s') : P (read ++ items) s' := by
  induction items generalizing read s with
  | nil =>
    cases h
    rwa [List.append_nil]
  | cons a rest ih =>
    obtain ⟨next, hnext, h⟩ := bind_eq_ok_iff.mp h
    have hrest := ih (read ++ [a]) (hstep read a s next hstart hnext) h
    rwa [List.append_assoc] at hrest

/-- A property of the state is preserved by a run. -/
theorem invariant_foldlM (P : σ → Prop) (hstep : ∀ a s s', P s → step s a = .ok s' → P s')
    (hstart : P s) (h : items.foldlM step s = .ok s') : P s' :=
  history_foldlM (fun _ => P) (fun _ => hstep) [] hstart h

/-- A run over two lists is a run over the first one and then over the second. -/
theorem foldlM_append_eq_ok_iff {more : List α} :
    (items ++ more).foldlM step s = .ok s' ↔
      ∃ middle, items.foldlM step s = .ok middle ∧ more.foldlM step middle = .ok s' := by
  rw [List.foldlM_append]
  exact bind_eq_ok_iff

/-- A run that returns passes through a step at each of its items. -/
theorem foldlM_split_eq_ok_iff {more : List α} {a : α} :
    (items ++ a :: more).foldlM step s = .ok s' ↔
      ∃ before after, items.foldlM step s = .ok before ∧ step before a = .ok after ∧
        more.foldlM step after = .ok s' := by
  rw [foldlM_append_eq_ok_iff]
  constructor
  · rintro ⟨before, hbefore, h⟩
    obtain ⟨after, hafter, h⟩ := bind_eq_ok_iff.mp h
    exact ⟨before, after, hbefore, hafter, h⟩
  · rintro ⟨before, after, hbefore, hafter, h⟩
    exact ⟨before, hbefore, bind_eq_ok_iff.mpr ⟨after, hafter, h⟩⟩

/-- A search among items whose tests all return. -/
theorem anyM_eq_ok {test : α → Except ε Bool} {found : α → Bool}
    (h : ∀ a ∈ items, test a = .ok (found a)) : items.anyM test = .ok (items.any found) := by
  induction items with
  | nil => rfl
  | cons a rest ih =>
    rw [List.anyM, h a List.mem_cons_self, ok_bind, List.any_cons]
    cases found a with
    | true => rfl
    | false => exact ih fun b hb => h b (List.mem_cons_of_mem a hb)

end Python
