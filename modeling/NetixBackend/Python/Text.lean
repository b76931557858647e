import Mathlib.Data.List.Infix

/-!
`needle in text`, and joining texts by a separator.

A text that is joined from parts holds more than its parts do: the empty text,
and what runs across a separator. A needle that is neither is found in one of
the parts.
-/

namespace Python

/-- `needle in text`. -/
def Occurs (needle text : String) : Prop := needle.toList <:+: text.toList

instance (needle text : String) : Decidable (Occurs needle text) :=
  inferInstanceAs (Decidable (_ <:+: _))

theorem infix_append_cons_iff {α : Type*} {separator : α} {needle left right : List α}
    (h : separator ∉ needle) :
    needle <:+: left ++ separator :: right ↔ needle <:+: left ∨ needle <:+: right := by
  have hstops : ∀ {part}, separator ∉ part → part <+: separator :: right → part = [] := by
    intro part hpart hstart
    cases part with
    | nil => rfl
    | cons first rest =>
        obtain ⟨rfl, -⟩ := List.cons_prefix_cons.mp hstart
        simp at hpart
  rw [List.infix_append_iff, List.infix_cons_iff]
  constructor
  · rintro (hleft | (hstart | hright) | ⟨before, after, rfl, hbefore, hafter⟩)
    · exact .inl hleft
    · exact .inl (hstops h hstart ▸ List.nil_infix)
    · exact .inr hright
    · rw [hstops (fun hmem => h (List.mem_append_right _ hmem)) hafter, List.append_nil]
      exact .inl hbefore.isInfix
  · rintro (hleft | hright)
    · exact .inl hleft
    · exact .inr (.inl (.inr hright))

theorem infix_intercalate_iff {α : Type*} {separator : α} {needle : List α} {parts : List (List α)}
    (h : separator ∉ needle) (hne : needle ≠ []) :
    needle <:+: [separator].intercalate parts ↔ ∃ part ∈ parts, needle <:+: part := by
  induction parts with
  | nil => simpa using hne
  | cons part rest ih =>
      cases rest with
      | nil => simp
      | cons part' rest =>
          rw [List.intercalate_cons_cons, List.append_assoc, List.singleton_append,
            infix_append_cons_iff h, ih]
          simp

/-- A needle without a newline, and not empty, occurs in a text joined by
newlines exactly when it occurs in one of the lines joined. -/
theorem occurs_join_iff {needle : String} {texts : List String} (h : '\n' ∉ needle.toList)
    (hne : needle ≠ "") : Occurs needle ("\n".intercalate texts) ↔
      ∃ text ∈ texts, Occurs needle text := by
  have hne' : needle.toList ≠ [] := fun heq => hne (String.toList_eq_nil_iff.mp heq)
  unfold Occurs
  rw [String.toList_intercalate, show "\n".toList = ['\n'] from rfl,
    infix_intercalate_iff h hne']
  simp

end Python
