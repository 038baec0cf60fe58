import KeyedRows.Proofs.Error.Outcome
import KeyedRows.Proofs.Number.Integer
import KeyedRows.Proofs.Text.Splitting
import KeyedRows.Value.Text

namespace KeyedRows

namespace Integer

/-- An integer's text has neither blanks nor semicolons in it. -/
theorem render_plain {i : Int} {c : Char} (h : c ∈ render i) :
    Text.isBlank c = false ∧ c ≠ listSeparator := by
  obtain rfl | hdigit := mem_render h
  · decide
  · refine ⟨Text.isBlank_of_isDigit hdigit, ?_⟩
    rintro rfl
    cases hdigit

private theorem parse_trim_render {signBit : Nat} {i : Int} (hlow : -(signBit : Int) ≤ i) (hhigh : i < signBit) :
    parse signBit (Text.trim (render i)) = .ok i := by
  rw [Text.trim_eq_self fun _ hmem => (render_plain hmem).1]
  exact parse_render hlow hhigh

end Integer

namespace Scalar

/-- Whether an item is read back from its text, which has no semicolon in it. -/
def ReadsBack (kind : Scalar) (item : kind.Item) : Prop :=
  kind.parseItem (kind.renderItem item) = .ok item ∧ listSeparator ∉ kind.renderItem item

private theorem readsBack_bool (b : Bool) : Scalar.bool.ReadsBack b := by
  cases b <;> exact ⟨rfl, by decide⟩

private theorem readsBack_int32 (n : Int32) : Scalar.int32.ReadsBack n := by
  refine ⟨?_, fun hmem => (Integer.render_plain hmem).2 rfl⟩
  have hparse : Integer.parse signBit32 (Text.trim (Integer.render n.toInt)) = .ok n.toInt :=
    Integer.parse_trim_render n.le_toInt n.toInt_lt
  rw [parseItem, renderItem, hparse]
  exact congrArg Except.ok n.ofInt_toInt

private theorem readsBack_int64 (n : Int64) : Scalar.int64.ReadsBack n := by
  refine ⟨?_, fun hmem => (Integer.render_plain hmem).2 rfl⟩
  have hparse : Integer.parse signBit64 (Text.trim (Integer.render n.toInt)) = .ok n.toInt :=
    Integer.parse_trim_render n.le_toInt n.toInt_lt
  rw [parseItem, renderItem, hparse]
  exact congrArg Except.ok n.ofInt_toInt

private theorem readsBack_string {s : String} : Scalar.string.ReadsBack s ↔ listSeparator ∉ s.toList := by
  rw [ReadsBack, parseItem, renderItem, String.ofList_toList]
  exact and_iff_right rfl

end Scalar

namespace Value

variable {kind : Scalar} {type : ColumnType} {text : List Char} {parts : List (List Char)}

/-- A text has the only item texts that it can be joined from: none of them has a
semicolon in it, and they are not one empty text alone. -/
theorem itemTexts_eq_iff : itemTexts text = parts ↔
    (∀ part ∈ parts, listSeparator ∉ part) ∧ parts ≠ [[]] ∧
      [listSeparator].intercalate parts = text := by
  rw [itemTexts]
  by_cases hempty : text = []
  · subst hempty
    rw [if_pos List.isEmpty_nil]
    constructor
    · rintro rfl
      exact ⟨nofun, nofun, rfl⟩
    · -- Cutting no text at all would give one empty part, which is what the list without items excludes.
      rintro ⟨hfree, hlone, hjoin⟩
      by_contra hsome
      have hparts := Text.splitOn_eq_iff.2 ⟨Ne.symm hsome, hfree, hjoin⟩
      rw [List.splitOn_nil] at hparts
      exact hlone hparts.symm
  · rw [if_neg (mt List.isEmpty_iff.1 hempty), Text.splitOn_eq_iff]
    constructor
    · rintro ⟨-, hfree, rfl⟩
      refine ⟨hfree, ?_, rfl⟩
      rintro rfl
      exact hempty rfl
    · rintro ⟨hfree, -, rfl⟩
      refine ⟨?_, hfree, rfl⟩
      rintro rfl
      exact hempty rfl

/-- The texts of the items, joined, are the text that was cut. Empty text has no
items, and joining none gives it back too. -/
theorem intercalate_itemTexts (text : List Char) : [listSeparator].intercalate (itemTexts text) = text :=
  (itemTexts_eq_iff.1 rfl).2.2

private theorem parseFor_eq_ok_iff {item : kind.Item} :
    kind.parseFor type text = .ok item ↔ kind.parseItem text = .ok item := by
  rw [Scalar.parseFor]
  cases kind.parseItem text <;> simp [Except.mapError]

private theorem parse_scalar_eq_ok_iff {item : kind.Item} {text : String} :
    parse (.scalar kind) text = .ok (.scalar kind item) ↔ kind.parseItem text.toList = .ok item := by
  rw [parse, map_eq_ok_iff]
  simp only [parseFor_eq_ok_iff, scalar.injEq, heq_eq_eq, true_and, exists_eq_right]

/-- Items are read one by one, each from its own text. -/
theorem parseItems_eq_mapM : parseItems kind parts = parts.mapM (kind.parseFor (.list kind)) := by
  induction parts with
  | nil => rfl
  | cons part rest ih =>
    rw [parseItems, List.mapM_cons, ih]

private theorem parse_list_eq_ok_iff {items : List kind.Item} {text : String} :
    parse (.list kind) text = .ok (.list kind items) ↔
      List.Forall₂ (fun part item => kind.parseItem part = .ok item) (itemTexts text.toList) items := by
  simp only [parse, map_eq_ok_iff, list.injEq, heq_eq_eq, true_and, exists_eq_right]
  rw [parseItems_eq_mapM, mapM_eq_ok_iff]
  simp only [parseFor_eq_ok_iff]

/-- Whether a value's text is read as the value when the brackets around it are
taken off. -/
def ReadsBack (v : Value) : Prop :=
  ∃ inner, v.render = "[" ++ inner ++ "]" ∧ parse v.type inner = .ok v

private theorem render_list (items : List kind.Item) :
    (list kind items).render = "[" ++ String.ofList (renderItems kind items) ++ "]" := by
  rw [render, ← String.toList_inj]
  simp

private theorem readsBack_list_iff {items : List kind.Item} : (list kind items).ReadsBack ↔
    parse (.list kind) (String.ofList (renderItems kind items)) = .ok (.list kind items) := by
  constructor
  · rintro ⟨inner, hrender, hparse⟩
    rw [render_list] at hrender
    have hinner : String.ofList (renderItems kind items) = inner := by
      simpa [← String.toList_inj] using hrender
    rwa [hinner]
  · intro h
    exact ⟨_, render_list items, h⟩

/-- A list of items that are read back is read back itself, unless it holds one item
whose text is empty. The text of such a list would be empty, which is read as the
list without items. -/
theorem readsBack_list {items : List kind.Item} (hitems : ∀ item ∈ items, kind.ReadsBack item)
    (hlone : items.map kind.renderItem ≠ [[]]) : (list kind items).ReadsBack := by
  have hparts : itemTexts (renderItems kind items) = items.map kind.renderItem := by
    refine itemTexts_eq_iff.2 ⟨?_, hlone, rfl⟩
    rw [List.forall_mem_map]
    exact fun item hmem => (hitems item hmem).2
  rw [readsBack_list_iff, parse_list_eq_ok_iff, String.toList_ofList, hparts, List.forall₂_map_left_iff,
    List.forall₂_same]
  exact fun item hmem => (hitems item hmem).1

/-- Where no item has an empty text, all lists of items that are read back are. -/
theorem readsBack_list_of_ne_nil (kind : Scalar) (hsome : ∀ item, kind.renderItem item ≠ [])
    (hback : ∀ item, kind.ReadsBack item) (items : List kind.Item) : (list kind items).ReadsBack := by
  refine readsBack_list (fun item _ => hback item) ?_
  intro hlone
  have hmem : [] ∈ items.map kind.renderItem := hlone ▸ List.mem_singleton_self _
  obtain ⟨item, -, hnil⟩ := List.mem_map.1 hmem
  exact hsome item hnil

/-- A text is the list of its item texts, as strings. Nothing is asked of the text,
so reading it never fails. -/
theorem parse_strings (text : String) :
    parse (.list .string) text = .ok (.list .string ((itemTexts text.toList).map String.ofList)) := by
  rw [parse_list_eq_ok_iff, List.forall₂_map_right_iff, List.forall₂_same]
  exact fun _ _ => rfl

/-- The strings that a text is read as are its item texts. -/
theorem map_toList_of_parse_strings {text : String} {items : List String}
    (h : parse (.list .string) text = .ok (.list .string items)) :
    items.map String.toList = itemTexts text.toList := by
  rw [parse_strings] at h
  cases h
  rw [List.map_map]
  exact List.map_id'' (fun _ => String.toList_ofList) _

/-- Joining the strings that a text is read as gives the text back. -/
theorem join_of_parse_strings {text : String} {items : List String}
    (h : parse (.list .string) text = .ok (.list .string items)) : ";".intercalate items = text := by
  rw [← String.toList_inj, String.toList_intercalate, map_toList_of_parse_strings h]
  exact intercalate_itemTexts text.toList

private theorem parse_strings_injective : Function.Injective (parse (.list .string)) := by
  intro text other h
  have htext := parse_strings text
  have hother := htext
  rw [h] at hother
  exact (join_of_parse_strings htext).symm.trans (join_of_parse_strings hother)

/-- Strings with semicolons in them are cut apart, and one empty string alone is
lost. -/
theorem readsBack_strings_iff {items : List String} : (list .string items).ReadsBack ↔
    (∀ s ∈ items, ';' ∉ s.toList) ∧ items ≠ [""] := by
  constructor
  · intro h
    have hparts := map_toList_of_parse_strings (readsBack_list_iff.1 h)
    rw [String.toList_ofList] at hparts
    obtain ⟨hfree, hlone, -⟩ := itemTexts_eq_iff.1 hparts.symm
    rw [List.forall_mem_map] at hfree
    refine ⟨hfree, ?_⟩
    rintro rfl
    exact hlone (congrArg ([·]) String.toList_empty)
  · rintro ⟨hfree, hlone⟩
    refine readsBack_list (fun s hmem => Scalar.readsBack_string.2 (hfree s hmem)) ?_
    intro hnil
    obtain ⟨s, rest, rfl, hs, hrest⟩ := List.map_eq_cons_iff.1 hnil
    rw [List.map_eq_nil_iff.1 hrest, String.toList_eq_nil_iff.1 hs] at hlone
    exact hlone rfl

private theorem exists_parse_scalar_iff {text : String} : (∃ v, parse (.scalar kind) text = .ok v) ↔
    ∃ item, kind.parseItem text.toList = .ok item := by
  simp only [parse, map_eq_ok_iff, parseFor_eq_ok_iff]
  exact ⟨fun ⟨_, item, h, _⟩ => ⟨item, h⟩, fun ⟨item, h⟩ => ⟨_, item, h, rfl⟩⟩

/-- What is read as a list is a list of the type that was asked for. -/
theorem exists_list_of_parse {v : Value} {text : String} (h : parse (.list kind) text = .ok v) :
    ∃ items, v = .list kind items := by
  rw [parse, map_eq_ok_iff] at h
  obtain ⟨items, -, rfl⟩ := h
  exact ⟨items, rfl⟩

/-- The texts between semicolons, for a text that is not empty. -/
theorem itemTexts_of_ne_empty {text : String} (h : text ≠ "") :
    itemTexts text.toList = text.toList.splitOn ';' := by
  rw [itemTexts, if_neg]
  · rfl
  · rwa [List.isEmpty_iff, String.toList_eq_nil_iff]

/-- A list has one item for each text between semicolons, read from it as a value by
itself would be. The empty text is left out, as it has one part but no items. -/
theorem items_of_parse_list {items : List kind.Item} {text : String} (hsome : text ≠ "")
    (h : parse (.list kind) text = .ok (.list kind items)) : List.Forall₂
      (fun part item => parse (.scalar kind) (String.ofList part) = .ok (.scalar kind item))
      (text.toList.splitOn ';') items := by
  simp only [parse_scalar_eq_ok_iff, String.toList_ofList]
  rwa [parse_list_eq_ok_iff, itemTexts_of_ne_empty hsome] at h

/-- A text is read as a list if it is empty, or if each text between semicolons is
read as an item. One bad item is enough to refuse the whole text. -/
theorem exists_parse_list_iff {text : String} : (∃ v, parse (.list kind) text = .ok v) ↔
    text = "" ∨
      ∀ part ∈ text.toList.splitOn ';', ∃ v, parse (.scalar kind) (String.ofList part) = .ok v := by
  simp only [exists_parse_scalar_iff, String.toList_ofList]
  by_cases hempty : text = ""
  · subst hempty
    exact iff_of_true ⟨.list kind [], rfl⟩ (.inl rfl)
  · rw [or_iff_right hempty, ← itemTexts_of_ne_empty hempty, ← exists_forall₂]
    constructor
    · rintro ⟨v, h⟩
      obtain ⟨items, rfl⟩ := exists_list_of_parse h
      exact ⟨items, parse_list_eq_ok_iff.1 h⟩
    · rintro ⟨items, h⟩
      exact ⟨_, parse_list_eq_ok_iff.2 h⟩

/-- Lists of bools and of integers, the least ones included, are read back from
their text without the brackets, and of lists of strings just those are that have no
semicolons in them and are not one empty string alone. Any text is read as a list of
strings which, joined, give the text back, so that no two texts are read alike. A
list of any kind is read from the empty text, which gives no items, and from a text
each of whose parts between semicolons is read as an item by itself, which gives
these items in their order. -/
theorem list_texts_round_trip :
    (∀ items : List Bool, (list .bool items).ReadsBack) ∧
    (∀ items : List Int32, (list .int32 items).ReadsBack) ∧
    (∀ items : List Int64, (list .int64 items).ReadsBack) ∧
    (∀ items : List String, (list .string items).ReadsBack ↔
      (∀ s ∈ items, ';' ∉ s.toList) ∧ items ≠ [""]) ∧
    (∀ text, ∃ items : List String, parse (.list .string) text = .ok (.list .string items) ∧
      ";".intercalate items = text) ∧
    Function.Injective (parse (.list .string)) ∧
    ∀ (kind : Scalar) (text : String),
      ((∃ v, parse (.list kind) text = .ok v) ↔ text = "" ∨
        ∀ part ∈ text.toList.splitOn ';', ∃ v, parse (.scalar kind) (String.ofList part) = .ok v) ∧
      ∀ v, parse (.list kind) text = .ok v → ∃ items, v = .list kind items ∧ (text = "" → items = []) ∧
        (text ≠ "" → List.Forall₂
          (fun part item => parse (.scalar kind) (String.ofList part) = .ok (.scalar kind item))
          (text.toList.splitOn ';') items) := by
  refine ⟨?_, ?_, ?_, fun _ => readsBack_strings_iff, ?_, parse_strings_injective, ?_⟩
  · refine readsBack_list_of_ne_nil .bool ?_ Scalar.readsBack_bool
    intro b
    cases b <;> exact List.cons_ne_nil _ _
  · exact readsBack_list_of_ne_nil .int32 (fun _ => Integer.render_ne_nil) Scalar.readsBack_int32
  · exact readsBack_list_of_ne_nil .int64 (fun _ => Integer.render_ne_nil) Scalar.readsBack_int64
  · intro text
    exact ⟨_, parse_strings text, join_of_parse_strings (parse_strings text)⟩
  · intro kind text
    refine ⟨exists_parse_list_iff, ?_⟩
    intro v h
    obtain ⟨items, rfl⟩ := exists_list_of_parse h
    refine ⟨items, rfl, ?_, fun hsome => items_of_parse_list hsome h⟩
    rintro rfl
    rwa [parse_list_eq_ok_iff, String.toList_empty, itemTexts, if_pos List.isEmpty_nil,
      List.forall₂_nil_left_iff] at h

/-- The least integer, two empty strings, and the one list that is not read back;
items with a blank and a sign; and a last item that is missing. -/
theorem list_texts_round_trip_at_minima :
    (list .int64 [Int64.minValue, 0]).ReadsBack ∧ (list .string ["", ""]).ReadsBack ∧
      ¬(list .string [""]).ReadsBack ∧
      List.Forall₂ (fun part item => parse (.scalar .int32) (String.ofList part) = .ok (.scalar .int32 item))
        ("-2147483648; +7".toList.splitOn ';') [Int32.minValue, 7] ∧
      ¬∃ v, parse (.list .int32) "1;" = .ok v := by
  obtain ⟨-, -, hint64, hstring, -, -, hread⟩ := list_texts_round_trip
  have hnumbers : parse (.list .int32) "-2147483648; +7" = .ok (.list .int32 [Int32.minValue, 7]) := by
    decide +kernel
  have hempty : parse (.scalar .int32) "" =
      .error (.badText (.column (.scalar .int32)) "" (.integer .empty)) := by
    decide +kernel
  refine ⟨hint64 _, (hstring _).2 (by decide), mt (hstring _).1 (by decide), ?_, ?_⟩
  · obtain ⟨items, hitems, -, hparts⟩ := (hread .int32 _).2 _ hnumbers
    cases hitems
    exact hparts (by decide)
  · rw [(hread .int32 _).1]
    rintro (htext | hparts)
    · exact absurd htext (by decide)
    · obtain ⟨v, hv⟩ := hparts [] (by decide)
      rw [show String.ofList [] = "" from rfl, hempty] at hv
      cases hv

end Value

end KeyedRows
