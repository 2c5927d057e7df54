import EditorFlags.Proofs.Settings.Lossless
import EditorFlags.Proofs.Settings.Request

/-!
# What settings write, requests read

A literal spells its text whatever the characters are (`denotes_quote`), and requests are read
by the grammar that says so. So the literal of a flag, put in the place of a file name, is
decoded to the flag. In the text of some settings the same literals stand under a key that is
not that of a file name, and there they are passed over.
-/

namespace EditorFlags

open Json

namespace Settings

/-- Each flag has its literal between the brackets. -/
theorem quote_infix_inside {flag : String} {flags : List String} (member : flag ∈ flags) :
    (quote flag).toList <:+: inside flags := by
  fun_induction flagLines flags with
  | case1 => cases member
  | case2 last =>
      obtain rfl := List.mem_singleton.mp member
      exact ⟨['\n', ' ', ' ', ' ', ' '], [], by simp [inside, flagLines]⟩
  | case3 first others more ih =>
      have split : inside (first :: others) =
          ['\n', ' ', ' ', ' ', ' '] ++ (quote first).toList ++ ([','] ++ inside others) := by
        simp [inside, flagLines]
      rw [split]
      rcases List.mem_cons.mp member with rfl | later
      · exact ⟨_, _, rfl⟩
      · refine (ih later).trans ?_
        rw [← List.append_assoc]
        exact (List.suffix_append _ _).isInfix

theorem quote_infix_render {flag : String} {settings : Settings} (member : flag ∈ settings.flags) :
    (quote flag).toList <:+: settings.render.toList := by
  obtain ⟨flags⟩ := settings
  rw [toList_render (List.ne_nil_of_mem member)]
  exact (quote_infix_inside member).trans ⟨_, _, List.append_assoc ..⟩

end Settings

namespace Request

theorem isText_named (name : String) :
    IsText ("\x7b\"filename\": " ++ quote name ++ "\x7d").toList
      (.object [(units filenameKey, .string (units name.toList))]) := by
  have key : IsKey "\"filename\":".toList (units filenameKey) :=
    .key blank_nil (spells_flatMap_escapeChar filenameKey) blank_nil
  have space : Blank [' '] := blank_of_all rfl
  have member := Denotes.lastMember key space (Settings.denotes_quote name) blank_nil
  exact ⟨[], _, [], by simp, blank_nil, .object member, blank_nil⟩

/-- The key of an only member is a text if it spells one. -/
theorem textKeys_singleton (key : String) (tree : Tree) : TextKeys [(units key.toList, tree)] := by
  intro member inside
  obtain rfl := List.mem_singleton.mp inside
  exact ⟨key, rfl⟩

/-- **What settings write is read.** The literal of a flag is read as the flag where a file is
named, and the settings with the literals of all flags are a request that names no file. -/
theorem ofJson_of_written :
    (∀ flag : String,
      ofJson ("\x7b\"filename\": " ++ quote flag ++ "\x7d") = .ok ⟨some (.ofText flag)⟩) ∧
    ∀ settings : Settings,
      (∀ flag ∈ settings.flags, (quote flag).toList <:+: settings.render.toList) ∧
        ofJson settings.render = .ok anyFile := by
  refine ⟨fun flag => ?_, fun settings => ⟨fun flag => Settings.quote_infix_render, ?_⟩⟩
  · exact (ofJson_eq_ok_iff_of_isText (isText_named flag)).mpr
      (.named (textKeys_singleton "filename" _) rfl (.text flag))
  · have noFile : filenames [(units "flags".toList,
        .array (settings.flags.map fun flag => .string (units flag.toList)))] = [] :=
      filenames_cons_other (by decide) _ []
    exact (ofJson_eq_ok_iff_of_isText (Settings.isText_render settings)).mpr
      (.unnamed (textKeys_singleton "flags" _) noFile)

end Request

end EditorFlags
