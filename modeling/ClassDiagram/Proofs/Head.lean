import ClassDiagram.Markup.Head
import ClassDiagram.Proofs.Scan

/-! Heads of declarations, written out and read again. What follows the name is handed on as it
stands, as long as it does not go on with the name. -/

namespace ClassDiagram.Markup

open Text

variable {w t : List Char}

theorem skipKeyword?_spaced (k : String) (ht : t.head?.any isBlank = false) :
    skipKeyword? k (k.toList ++ ' ' :: t) = some t := by
  simp [skipKeyword?, Scan.someBlanks_space ht]

theorem readNamed_spaced (k : String) (hw : IsWord w) (ht : t.head?.any isWordChar = false) :
    readNamed k (k.toList ++ ' ' :: (w ++ t)) = some (String.ofList w, t) := by
  simp [readNamed, skipKeyword?_spaced k (hw.head_not_blank t), Scan.word_append hw ht]

theorem readPackage_spaced (hw : IsWord w) (ht : t.head?.any isWordChar = false) :
    readPackage ("package".toList ++ ' ' :: (w ++ t)) = some (String.ofList w) := by
  have hkey : startsWith "package".toList ("package".toList ++ ' ' :: (w ++ t)) = true :=
    startsWith_iff.2 (List.prefix_append _ _)
  rw [readPackage, if_pos hkey, readNamed_spaced "package" hw ht, Option.map_some]

theorem skipAbstract_class (t : List Char) :
    (skipKeyword? "abstract" ("class".toList ++ t)).getD ("class".toList ++ t) =
      "class".toList ++ t := rfl

theorem readClassHead_plain (hw : IsWord w) (ht : t.head?.any isWordChar = false) :
    readClassHead ("class".toList ++ ' ' :: (w ++ t)) =
      some (⟨String.ofList w, String.ofList w⟩, t) := by
  have hquoted : Scan.quoted (w ++ t) = none := Scan.quoted_none (by
    cases w with
    | nil => exact absurd rfl hw.ne_nil
    | cons c w =>
      have hc : c ≠ '"' := fun h => hw.not_mem (c := '"') rfl (h ▸ List.mem_cons_self)
      simpa using hc)
  rw [readClassHead, skipAbstract_class, skipKeyword?_spaced "class" (hw.head_not_blank t)]
  simp [readAliased, readQuoted, readPlain, hquoted, Scan.word_append hw ht]

theorem readClassHead_abstract (t : List Char) :
    readClassHead ("abstract".toList ++ ' ' :: ("class".toList ++ t)) =
      readClassHead ("class".toList ++ t) := by
  rw [readClassHead, skipKeyword?_spaced "abstract" rfl, Option.getD_some, readClassHead,
    skipAbstract_class]

theorem readClassHead_aliased {shown : List Char} (hs : shown ≠ []) (hq : '"' ∉ shown)
    (hw : IsWord w) (ht : t.head?.any isWordChar = false) :
    readClassHead ("class".toList ++ ' ' :: ('"' :: shown ++ '"' :: (" as ".toList ++ (w ++ t)))) =
      some (⟨String.ofList w, String.ofList shown⟩, t) := by
  have hblank : Scan.someBlanks (" as ".toList ++ (w ++ t)) =
      some ([' '], "as ".toList ++ (w ++ t)) := Scan.someBlanks_space rfl
  have has : after? "as".toList ("as ".toList ++ (w ++ t)) = some (' ' :: (w ++ t)) := rfl
  have hread : readAliased ('"' :: shown ++ '"' :: (" as ".toList ++ (w ++ t))) =
      some (⟨String.ofList w, String.ofList shown⟩, t) := by
    rw [readAliased, Scan.quoted_append hq hs]
    simp only [Option.bind_eq_bind, Option.bind_some, hblank, has,
      Scan.someBlanks_space (hw.head_not_blank t), Scan.word_append hw ht]
    rfl
  rw [readClassHead, skipAbstract_class, skipKeyword?_spaced "class" rfl]
  simp only [Option.bind_eq_bind, Option.bind_some, hread]

end ClassDiagram.Markup
