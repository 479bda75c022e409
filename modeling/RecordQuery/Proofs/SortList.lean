import Mathlib.Data.List.TakeWhile
import RecordQuery.SortOrdering
import RecordQuery.Text.Fields

/-!
# Lists of orderings are read back

A list of orderings such as `+name, -balance` is written with a sign before every key, and there may
be blanks around its items and blank items among them. `SortOrdering.parse?_listText` reads it back:
one ordering for each key, in the direction of the sign, in the order of the list. The first sign
alone is the direction, so that a key may begin with a sign itself.
-/

namespace RecordQuery

namespace Text

/-- A text of blanks. -/
structure Blanks where
  text : List Char
  isBlank : ∀ c ∈ text, Text.isBlank c = true

theorem dropWhile_isBlank_append (b : Blanks) {cs : List Char}
    (h : ∀ c ∈ cs.head?, isBlank c = false) : (b.text ++ cs).dropWhile isBlank = cs := by
  rw [List.dropWhile_append_of_pos b.isBlank]
  cases cs with
  | nil => rfl
  | cons c cs => simp [h c rfl]

/-- Trimming takes the blanks off that are around a text, and no more. -/
theorem trim_append (before after : Blanks) {cs : List Char} (h : cs ≠ [])
    (h₁ : ∀ c ∈ cs.head?, isBlank c = false) (h₂ : ∀ c ∈ cs.getLast?, isBlank c = false) :
    trim (before.text ++ (cs ++ after.text)) = cs := by
  let reversed : Blanks := ⟨after.text.reverse, fun c hc => after.isBlank c (List.mem_reverse.1 hc)⟩
  have h₃ : ∀ c ∈ (cs ++ after.text).head?, isBlank c = false := by
    obtain ⟨d, ds, rfl⟩ := List.exists_cons_of_ne_nil h
    exact h₁
  have h₄ : ∀ c ∈ cs.reverse.head?, isBlank c = false := by
    rwa [List.head?_reverse]
  calc trim (before.text ++ (cs ++ after.text))
      = ((cs ++ after.text).reverse.dropWhile isBlank).reverse := by
        rw [trim, dropWhile_isBlank_append before h₃]
    _ = ((reversed.text ++ cs.reverse).dropWhile isBlank).reverse := by
        rw [List.reverse_append]
    _ = cs := by
        rw [dropWhile_isBlank_append reversed h₄, List.reverse_reverse]

theorem trim_blanks (b : Blanks) : trim b.text = [] := by
  have h : b.text.dropWhile isBlank = [] := List.dropWhile_eq_nil_iff.2 b.isBlank
  rw [trim, h]
  rfl

end Text

namespace SortOrdering

open Text (Blanks)

/-- A direction and a key that can stand in a list of orderings: a text that is not empty, with no
comma in it and no blank at its end. -/
structure SignedKey where
  isDescending : Bool
  key : String
  ne_nil : key.toList ≠ []
  noComma : ',' ∉ key.toList
  noBlankEnd : ∀ c ∈ key.toList.getLast?, Text.isBlank c = false

namespace SignedKey

/-- The sign of the direction. -/
def sign (k : SignedKey) : Char :=
  if k.isDescending then '-' else '+'

/-- The sign and the key. -/
def text (k : SignedKey) : List Char :=
  k.sign :: k.key.toList

/-- The ordering by the key in the direction. -/
def ordering (k : SignedKey) : SortOrdering :=
  .ofText k.key (if k.isDescending then .descending else .ascending)

theorem ofItem_text (k : SignedKey) : ofItem k.text = k.ordering := by
  obtain ⟨c, cs, h⟩ := List.exists_cons_of_ne_nil k.ne_nil
  have h₁ : String.ofList (c :: cs) = k.key := by rw [← h, String.ofList_toList]
  rw [text, ordering, sign, h]
  cases k.isDescending <;> simp [ofItem, h₁]

theorem trim_text (k : SignedKey) (before after : Blanks) :
    Text.trim (before.text ++ (k.text ++ after.text)) = k.text := by
  refine Text.trim_append before after (List.cons_ne_nil _ _) ?_ ?_
  · intro c hc
    obtain rfl := Option.some.inj hc
    unfold sign
    split <;> rfl
  · rw [text, List.getLast?_cons_of_ne_nil k.ne_nil]
    exact k.noBlankEnd

theorem notMem_text (k : SignedKey) : ',' ∉ k.text := by
  intro h
  rcases List.mem_cons.1 h with h | h
  · unfold sign at h
    split at h <;> contradiction
  · exact k.noComma h

end SignedKey

/-- An item as it may be written: blanks, or a key with its sign and blanks around them. -/
inductive ListItem where
  | blank (b : Blanks)
  | key (before : Blanks) (k : SignedKey) (after : Blanks)

namespace ListItem

/-- The characters of an item. -/
def text : ListItem → List Char
  | blank b => b.text
  | key before k after => before.text ++ (k.text ++ after.text)

/-- The key of an item, unless it is blank. -/
def key? : ListItem → Option SignedKey
  | blank _ => none
  | key _ k _ => some k

theorem notMem_text (i : ListItem) : ',' ∉ i.text := by
  have h (b : Blanks) : ',' ∉ b.text := fun hb => absurd (b.isBlank ',' hb) (by decide)
  cases i with
  | blank b => exact h b
  | key before k after => simp [text, h, k.notMem_text]

theorem trim_text (i : ListItem) : Text.trim i.text = (i.key?.map SignedKey.text).getD [] := by
  cases i with
  | blank b => exact Text.trim_blanks b
  | key before k after => exact k.trim_text before after

end ListItem

/-- The items with commas between them. -/
def listText (items : List ListItem) : String :=
  .ofList (Text.joinFields ',' (items.map ListItem.text))

/-- Trimmed and without the blank ones, the items are the orderings by the keys in them. -/
theorem map_ofItem_trim (items : List ListItem) :
    (((items.map ListItem.text).map Text.trim).filter fun item => !item.isEmpty).map ofItem =
      (items.filterMap ListItem.key?).map SignedKey.ordering := by
  induction items with
  | nil => rfl
  | cons i items ih =>
    cases h : i.key? with
    | none => simpa [i.trim_text, h] using ih
    | some k =>
      have h₁ : ofItem (k.sign :: k.key.toList) = k.ordering := k.ofItem_text
      simpa [i.trim_text, h, SignedKey.text, h₁] using ih

/-- A list of keys with their signs, at least one, is read as the orderings by these keys in the
directions of the signs and in their order, whatever blanks stand around the items, and whatever
blank items stand among them. -/
theorem parse?_listText {keys : List SignedKey} (h : keys ≠ []) {items : List ListItem}
    (hk : items.filterMap ListItem.key? = keys) :
    parse? (listText items) = some (keys.map SignedKey.ordering) := by
  have h₁ : items.map ListItem.text ≠ [] := by
    intro h'
    rw [List.map_eq_nil_iff.1 h'] at hk
    exact h hk.symm
  have h₂ : ∀ w ∈ items.map ListItem.text, ',' ∉ w := by
    intro w hw
    obtain ⟨i, -, rfl⟩ := List.mem_map.1 hw
    exact i.notMem_text
  have h₃ : (Text.fields ',' (listText items).toList) = items.map ListItem.text := by
    rw [listText, String.toList_ofList, Text.fields_joinFields ',' h₁ h₂]
  have h₄ := map_ofItem_trim items
  rw [hk] at h₄
  have h₅ : listText items ≠ "" := by
    -- The empty text is a single blank item, in which there is no key.
    intro h'
    rw [← h₃, h'] at h₄
    exact h (List.map_eq_nil_iff.1 h₄.symm)
  rw [parse?, if_neg h₅, h₃]
  exact congrArg some h₄

/-- Signs before signs, a sign alone as a key, a key with a dot and one with a blank in front, and
blanks of several kinds. -/
theorem parse?_listText_signs :
    let keys : List SignedKey :=
      [⟨true, "-a.b", by decide, by decide, by decide⟩,
        ⟨false, "+", by decide, by decide, by decide⟩,
        ⟨true, " c d", by decide, by decide, by decide⟩]
    keys ≠ [] ∧
      parse? " --a.b\t,,\n , ++,\u00a0- c d" =
        some [⟨.path "-a" ["b"], .descending⟩, ⟨.name "+", .ascending⟩,
          ⟨.name " c d", .descending⟩] := by
  intro keys
  have hk : keys ≠ [] := List.cons_ne_nil _ _
  let space : Blanks := ⟨[' '], by decide⟩
  let nothing : Blanks := ⟨[], by decide⟩
  let items : List ListItem :=
    [.key space keys[0] ⟨['\t'], by decide⟩, .blank nothing, .blank ⟨['\n', ' '], by decide⟩,
      .key space keys[1] nothing, .key ⟨['\u00a0'], by decide⟩ keys[2] nothing]
  have h : parse? (listText items) = some (keys.map SignedKey.ordering) :=
    parse?_listText hk rfl
  have h₁ : listText items = " --a.b\t,,\n , ++,\u00a0- c d" := by decide
  have h₂ : keys.map SignedKey.ordering = [⟨.path "-a" ["b"], .descending⟩, ⟨.name "+", .ascending⟩,
      ⟨.name " c d", .descending⟩] := by rfl
  rw [h₁, h₂] at h
  exact ⟨hk, h⟩

end SortOrdering

end RecordQuery
