import ExecutorHost.Document.Writer
import ExecutorHost.Text.Part

/-!
# Parts of written documents

The compact text of an object has in it the quoted text of each of its keys and the compact text of
each of its values. So whatever is written somewhere in a document can be found in its text.
-/

namespace ExecutorHost

namespace Text

/-- A word occurs where it stands without a gap. -/
theorem occursIn_iff {word text : List Char} : occursIn word text = true ↔ word <:+: text := by
  induction text with
  | nil => simp [occursIn]
  | cons c rest ih =>
    rw [occursIn, Bool.or_eq_true, List.isPrefixOf_iff_prefix, ih, List.infix_cons_iff]

end Text

namespace Document

open Text.Quoted (encode)

/-- The first member is written in front, and the others after it. -/
theorem compactMembers_cons (key : String) (d : Document) (rest : List (String × Document)) :
    encode key ++ ':' :: compact d <+: compactMembers ((key, d) :: rest) ∧
      compactMembers rest <:+ compactMembers ((key, d) :: rest) := by
  cases rest with
  | nil => exact ⟨List.prefix_refl _, List.nil_suffix⟩
  | cons e rest =>
    rw [compactMembers]
    · refine ⟨⟨_, rfl⟩, ?_⟩
      rw [List.append_assoc]
      refine List.suffix_append_of_suffix (List.IsSuffix.trans ?_ (List.suffix_cons _ _))
      exact List.suffix_append_of_suffix (List.suffix_cons _ _)
    · simp

theorem isInfix_member {key : String} {d : Document} {members : List (String × Document)}
    (h : (key, d) ∈ members) : encode key ++ ':' :: compact d <:+: compactMembers members := by
  induction members with
  | nil => cases h
  | cons e rest ih =>
    obtain ⟨hfirst, hrest⟩ := compactMembers_cons e.1 e.2 rest
    rcases List.mem_cons.1 h with rfl | h
    · exact hfirst.isInfix
    · exact (ih h).trans hrest.isInfix

theorem isInfix_compactMembers (members : List (String × Document)) :
    compactMembers members <:+: compact (.object members) := by
  rw [compact]
  exact List.infix_cons (List.infix_append_of_infix_left (List.infix_refl _))

theorem isInfix_key {key : String} {d : Document} {members : List (String × Document)}
    (h : (key, d) ∈ members) : encode key <:+: compact (.object members) :=
  (List.infix_append_left.trans (isInfix_member h)).trans (isInfix_compactMembers members)

theorem isInfix_value {key : String} {d : Document} {members : List (String × Document)}
    (h : (key, d) ∈ members) : compact d <:+: compact (.object members) := by
  have hvalue : compact d <:+: encode key ++ ':' :: compact d :=
    List.infix_append_of_infix_right (List.suffix_cons _ _).isInfix
  exact (hvalue.trans (isInfix_member h)).trans (isInfix_compactMembers members)

/-- A word occurs in the text of a document if it is part of the written form. -/
theorem contains_text {d : Document} {word : String} (h : word.toList <:+: compact d) :
    Text.contains d.text word = true := by
  rw [Text.contains, text, String.toList_ofList]
  exact Text.occursIn_iff.2 h

end Document

end ExecutorHost
