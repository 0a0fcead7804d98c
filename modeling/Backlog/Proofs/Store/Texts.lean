/-
  The texts of a store read back.

  Program: the active items are one pretty record; the archive has the compact record of an item on each
  line, and is cut into lines by its bytes.

  Specification: a record gives its items back (`read_render`), and so does the archive however many
  lines it has (`readLines_render`).

  The crux is that the line end of the archive stands nowhere else: a line end in a text is written with
  a backslash (`newline_not_mem_compact`), and the bytes of no other character include its byte
  (`eq_newline_of_mem`).
-/
import Backlog.Proofs.Item.Stored
import Backlog.Proofs.Text.Rows
import Backlog.Store.Folder

namespace Backlog

/-! ## The bytes of a text -/

namespace Text

theorem toList_loop (bytes : ByteArray) (i : Nat) (front : List UInt8) :
    ByteArray.toList.loop bytes i front = front.reverse ++ bytes.data.toList.drop i := by
  fun_induction ByteArray.toList.loop bytes i front with
  | case1 i front h ih =>
    have hi : i < bytes.data.toList.length := h
    rw [ih, List.drop_eq_getElem_cons hi]
    simp [ByteArray.get!, h]
  | case2 i front h =>
    rw [List.drop_eq_nil_of_le (Nat.le_of_not_lt h), List.append_nil]

theorem toList_bytes (bytes : ByteArray) : bytes.toList = bytes.data.toList :=
  toList_loop bytes 0 []

theorem toList_toUTF8 (s : String) : s.toUTF8.toList = s.toList.flatMap String.utf8EncodeChar := by
  rw [toList_bytes, String.toUTF8_eq_toByteArray, ← String.utf8Encode_toList]
  exact List.toList_data_toByteArray

theorem fromUTF8?_toUTF8 (s : String) : String.fromUTF8? s.toUTF8 = some s :=
  dif_pos s.isValidUTF8

/-- The byte of a line end belongs to no other character: those of longer encodings are 128 or more. -/
theorem eq_newline_of_mem {c : Char} (h : 10 ∈ String.utf8EncodeChar c) : c = '\n' := by
  have hbyte : ∀ n : Nat, (10 : UInt8) = UInt8.ofNat n → n % 256 = 10 := by
    intro n hn
    have hnat := congrArg UInt8.toNat hn
    simpa using hnat.symm
  have hval : c.val.toNat = 10 := by
    unfold String.utf8EncodeChar at h
    generalize c.val.toNat = v at h ⊢
    simp only [] at h
    split at h
    · have hv := hbyte v (List.mem_singleton.mp h)
      omega
    · exfalso
      split at h
      · simp only [List.mem_cons, List.not_mem_nil, or_false] at h
        rcases h with h | h <;>
        · have hv := hbyte _ h
          omega
      · split at h
        · simp only [List.mem_cons, List.not_mem_nil, or_false] at h
          rcases h with h | h | h <;>
          · have hv := hbyte _ h
            omega
        · simp only [List.mem_cons, List.not_mem_nil, or_false] at h
          rcases h with h | h | h | h <;>
          · have hv := hbyte _ h
            omega
  exact Char.ext (UInt32.toNat_inj.mp hval)

/-- A text on one line has no byte of a line end. -/
theorem newline_not_mem_toUTF8 {s : String} (h : '\n' ∉ s.toList) : 10 ∉ s.toUTF8.toList := by
  rw [toList_toUTF8]
  intro hmem
  obtain ⟨c, hc, hbyte⟩ := List.mem_flatMap.mp hmem
  exact h (eq_newline_of_mem hbyte ▸ hc)

end Text

/-! ## Compact values are on one line -/

namespace Json

theorem newline_not_mem_escapeChar (c : Char) : '\n' ∉ escapeChar c := by
  have hhex : ∀ n, '\n' ≠ hexDigit n := by
    intro n
    have hdigit : ∀ k < 16, '\n' ≠ Nat.digitChar k := by decide
    exact hdigit (n % 16) (Nat.mod_lt n (by decide))
  by_cases hc : c = '\n'
  · subst hc
    decide
  · unfold escapeChar
    repeat' split
    all_goals simp [hhex, Ne.symm hc]

theorem newline_not_mem_quote (s : String) : '\n' ∉ quote s := by
  simp [quote, newline_not_mem_escapeChar]

theorem newline_not_mem_toDigits (m : Nat) : '\n' ∉ Nat.toDigits 10 m := by
  intro hmem
  exact absurd (Text.isDigit_of_mem_toDigits hmem) (by decide)

theorem newline_not_mem_render {n : Number} (h : isWhole (.number n) = true) : '\n' ∉ n.render := by
  cases n with
  | whole n =>
    cases n with
    | ofNat m =>
      rw [Raw.render_ofNat]
      exact newline_not_mem_toDigits m
    | negSucc m =>
      rw [Raw.render_negSucc]
      simp [newline_not_mem_toDigits]
  | double d => cases h

mutual

/-- A value on one line has no line end. -/
theorem newline_not_mem_compactChars : (v : Json) → isWhole v = true → '\n' ∉ compactChars v
  | .null, _ => by decide
  | .bool b, _ => by cases b <;> decide
  | .number _, h => newline_not_mem_render h
  | .text s, _ => newline_not_mem_quote s
  | .array vs, h => by simp [compactChars, newline_not_mem_compactItems vs h]
  | .object fs, h => by simp [compactChars, newline_not_mem_compactFields fs h]

theorem newline_not_mem_compactItems : (vs : List Json) → itemsAreWhole vs = true →
    '\n' ∉ compactItems vs
  | [], _ => List.not_mem_nil
  | [v], h => newline_not_mem_compactChars v (Bool.and_eq_true_iff.mp h).1
  | v :: w :: vs, h => by
    have hv := newline_not_mem_compactChars v (Bool.and_eq_true_iff.mp h).1
    have hvs := newline_not_mem_compactItems (w :: vs) (Bool.and_eq_true_iff.mp h).2
    simp [compactItems, hv, hvs]

theorem newline_not_mem_compactFields : (fs : List (String × Json)) → fieldsAreWhole fs = true →
    '\n' ∉ compactFields fs
  | [], _ => List.not_mem_nil
  | [(k, v)], h => by
    have hv := newline_not_mem_compactChars v (Bool.and_eq_true_iff.mp h).1
    simp [compactFields, newline_not_mem_quote, hv]
  | (k, v) :: f :: fs, h => by
    have hv := newline_not_mem_compactChars v (Bool.and_eq_true_iff.mp h).1
    have hfs := newline_not_mem_compactFields (f :: fs) (Bool.and_eq_true_iff.mp h).2
    simp [compactFields, newline_not_mem_quote, hv, hfs]

end

end Json

/-! ## The archive -/

namespace Archive

/-- The text of an archive. -/
def render (items : List Item) : String := String.join (items.map line)

theorem render_append (items : List Item) (item : Item) :
    render (items ++ [item]) = render items ++ line item := by
  simp [render, String.join, List.foldl_append]

theorem cuts_addByte : Text.Cuts 10 addByte where
  atMark _ _ := rfl
  other _ _ _ hbyte := if_neg hbyte

/-- Rows of bytes with line ends after them are cut into those rows. -/
theorem lines_flatMap {rows : List (List UInt8)} (h : ∀ row ∈ rows, 10 ∉ row) :
    lines (rows.flatMap fun row => row ++ [10]) = rows := by
  have hall : (rows.flatMap fun row => row ++ [10]).foldr addByte [[]] = rows ++ [[]] := by
    induction rows with
    | nil => rfl
    | cons row rows ih =>
      obtain ⟨hrow, hrows⟩ := List.forall_mem_cons.mp h
      rw [List.flatMap_cons, List.append_assoc, List.singleton_append, cuts_addByte.foldr_append,
        cuts_addByte.foldr_of_not_mem hrow, ih hrows]
      rfl
  simp only [lines, hall, List.getLast?_concat, if_true, List.dropLast_concat]

theorem toList_render (items : List Item) : (render items).toUTF8.toList
    = (items.map fun item => item.toJson.compact.toUTF8.toList).flatMap fun row => row ++ [10] := by
  have hline : ∀ item, (line item).toList.flatMap String.utf8EncodeChar
      = item.toJson.compact.toUTF8.toList ++ [10] := by
    intro item
    rw [line, String.toList_append, List.flatMap_append, ← Text.toList_toUTF8]
    rfl
  rw [Text.toList_toUTF8, render, String.toList_join]
  simp only [List.flatMap_map, List.flatMap_assoc, hline]

/-- The lines of an archive are those of its items. -/
theorem lines_render {items : List Item} (h : ∀ item ∈ items, item.toJson.isWhole = true) :
    lines (render items).toUTF8.toList = items.map fun item => item.toJson.compact.toUTF8.toList := by
  rw [toList_render]
  refine lines_flatMap fun row hrow => ?_
  obtain ⟨item, hitem, rfl⟩ := List.mem_map.mp hrow
  refine Text.newline_not_mem_toUTF8 ?_
  rw [Json.compact, String.toList_ofList]
  exact Json.newline_not_mem_compactChars _ (h item hitem)

end Archive

namespace FolderStore

theorem decode_toUTF8 (path s : String) : decode path s.toUTF8 = .ok s := by
  rw [decode, Text.fromUTF8?_toUTF8]

theorem readLine_compact {item : Item} (h : item.Storable) (path : String) (number : Nat) :
    readLine path number item.toJson.compact.toUTF8.toList = .ok (some item) := by
  have hbytes : (⟨item.toJson.compact.toUTF8.toList.toArray⟩ : ByteArray) = item.toJson.compact.toUTF8 := by
    rw [Text.toList_bytes]
  have hblank : Text.isBlank item.toJson.compact = false := by
    rw [Text.isBlank, Json.compact, String.toList_ofList]
    rfl
  simp only [readLine, hbytes, decode_toUTF8, bind, Except.bind, hblank, Item.ofText?_compact h]
  rfl

/-- The archive gives back its items in their order. -/
theorem readLines_render {items : List Item} (h : ∀ item ∈ items, item.Storable) (path : String) :
    readLines path 1 (Archive.lines (Archive.render items).toUTF8.toList) = .ok items := by
  rw [Archive.lines_render fun item hitem => Item.isWhole_toJson (h item hitem)]
  generalize 1 = number
  induction items generalizing number with
  | nil => rfl
  | cons item items ih =>
    obtain ⟨hitem, hitems⟩ := List.forall_mem_cons.mp h
    rw [List.map_cons, readLines, readLine_compact hitem]
    simp only [ih hitems]
    rfl

end FolderStore

/-! ## Active items -/

namespace Snapshot

/-- The record of the active items. -/
def fields (items : List Item) : List (String × Json) :=
  [("schema_version", .nat layoutVersion), ("items", .array (items.map Item.toJson))]

theorem isWhole_fields {items : List Item} (h : ∀ item ∈ items, item.Storable) :
    (Json.object (fields items)).isWhole = true := by
  have hitems : (Json.array (items.map Item.toJson)).isWhole = true := by
    refine Json.itemsAreWhole_iff.mpr fun v hv => ?_
    obtain ⟨item, hitem, rfl⟩ := List.mem_map.mp hv
    exact Item.isWhole_toJson (h item hitem)
  refine Json.fieldsAreWhole_iff.mpr ?_
  simp only [fields, List.forall_mem_cons, hitems, true_and]
  exact ⟨rfl, by simp⟩

/-- The record of the active items gives them back in their order. -/
theorem read_render {items : List Item} (h : ∀ item ∈ items, item.Storable) :
    read (render items) = .ok items := by
  have hrecord : (Json.object (fields items)).toRaw.record? ["schema_version", "items"]
      = some [some (Json.nat layoutVersion).toRaw, some (Json.array (items.map Item.toJson)).toRaw] := by
    rw [Json.Raw.record?_toRaw (by simp [fields])]
    rfl
  have hversion : Json.Raw.int? 0 (Int.pow 2 32 - 1) (Json.nat layoutVersion).toRaw
      = some layoutVersion := rfl
  have hitems : Json.Raw.list? (Item.read? 2) (Json.array (items.map Item.toJson)).toRaw = some items :=
    Json.Raw.list?_toRaw fun item hitem => Item.read?_toRaw (h item hitem) (by decide)
  have hofRaw : ofRaw? (Json.object (fields items)).toRaw = some (layoutVersion, items) := by
    simp only [ofRaw?, hrecord, Option.bind_eq_bind, Option.bind_some, hversion, hitems]
    rfl
  rw [read, render, ← fields, Json.read?_pretty (isWhole_fields h), Option.bind_some, hofRaw]
  exact if_pos rfl

end Snapshot

end Backlog
