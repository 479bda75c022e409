import RecordQuery.Proofs.Key

/-!
# Key paths

What is found under a path of names that is written with dots between them.

* `Value.lookupText_append`: a path is followed up to any of its dots first, and from there in what
  was found. So the key that keys are put together to addresses what they address in turn, however
  they are bracketed (`Key.append_composes`);
* `Value.lookupPath_array`: a path is followed in an array by following it in every element. One
  name at a time is looked up in all elements, so the induction is on the path.
-/

namespace RecordQuery

/-! ## Paths in two parts -/

namespace Text

theorem splitAt_ne_nil (sep : Char) (s : String) : splitAt sep s ≠ [] := by
  simpa [splitAt] using fields_ne_nil sep s.toList

theorem splitAt_append (sep : Char) (s t : String) :
    splitAt sep (s ++ .singleton sep ++ t) = splitAt sep s ++ splitAt sep t := by
  have h : (s ++ .singleton sep ++ t).toList = s.toList ++ sep :: t.toList := by simp
  rw [splitAt, h, fields_append_cons, List.map_append]
  rfl

theorem getLast_splitAt_ne_empty {sep : Char} {s : String} (h₁ : s ≠ "")
    (h₂ : s.toList.getLast? ≠ some sep) :
    (splitAt sep s).getLast (splitAt_ne_nil sep s) ≠ "" := by
  have h₃ : s.toList ≠ [] := by simpa using h₁
  have h₄ := getLast_fields_ne_nil h₃ h₂
  simpa [splitAt] using h₄

end Text

namespace Value

/-- A path is followed up to any of its dots, and from there in what was found, unless the first
part is empty or ends in a dot itself: an empty name at the end of a path finds nothing. -/
theorem lookupText_append {first : String} (h₁ : first ≠ "")
    (h₂ : first.toList.getLast? ≠ some '.') (rest : String) (v : Value) :
    v.lookupText (first ++ "." ++ rest) = (v.lookupText first).lookupText rest := by
  have h₃ : Text.splitAt '.' (first ++ "." ++ rest) = _ := Text.splitAt_append '.' first rest
  have h₄ := Text.getLast_splitAt_ne_empty h₁ h₂
  rw [lookupText, h₃, lookupPath_append _ h₄ (Text.splitAt_ne_nil '.' rest)]
  rfl

end Value

namespace Key

theorem text_append (k j : Key) : (k.append j).text = k.text ++ "." ++ j.text := by
  apply String.toList_injective
  have h₁ : k.components.map String.toList ≠ [] := by simpa using k.components_ne_nil
  have h₂ : j.components.map String.toList ≠ [] := by simpa using j.components_ne_nil
  rw [toList_text, components_append, List.map_append, Text.joinFields_append '.' h₁ h₂,
    ← toList_text, ← toList_text]
  simp

theorem append_assoc (a b c : Key) : (a.append b).append c = a.append (b.append c) := by
  cases a with
  | name text => rw [append, append, append, components_append]
  | path first rest => rw [append, append, append, components_append, List.append_assoc]

/-- The key that two keys are put together to addresses what the second one addresses in what the
first one does, as long as the text of the first one is not empty and does not end in a dot. Three
keys give one key, however they are bracketed. -/
theorem append_composes :
    (∀ (k j : Key) (object : Value), k.text ≠ "" → k.text.toList.getLast? ≠ some '.' →
      (k.append j).valueIn object = j.valueIn (k.valueIn object)) ∧
      ∀ a b c : Key, ((a.append b).append c).components = (a.append (b.append c)).components ∧
        ((a.append b).append c).isEqual (a.append (b.append c)) = true := by
  refine ⟨fun k j object h₁ h₂ => ?_, fun a b c => ?_⟩
  · rw [valueIn, text_append, Value.lookupText_append h₁ h₂]
    rfl
  · rw [append_assoc]
    exact ⟨rfl, isEqual_self _⟩

/-- Names with dots in them, and an array with an object that answers look-ups and null. -/
theorem append_composes_dots :
    let k : Key := .path "a" ["b.c"]
    let j : Key := .name "d.e"
    let duck : Value := .keyed "Duck" ⟨[("c", .map [("d", .map [("e", .bool true)])])], "quack"⟩
    let object : Value := .map [("a", .array [.map [("b", duck)], .null])]
    k.text ≠ "" ∧ k.text.toList.getLast? ≠ some '.' ∧
      (k.append j).valueIn object = j.valueIn (k.valueIn object) ∧
      (k.append j).valueIn object = .array [.bool true, .missing] := by
  intro k j duck object
  have h₁ : k.text ≠ "" := by decide
  have h₂ : k.text.toList.getLast? ≠ some '.' := by decide
  have h₃ := append_composes.1 k j object h₁ h₂
  have h₄ : Text.splitAt '.' (k.append j).text = ["a", "b", "c", "d", "e"] := by decide
  refine ⟨h₁, h₂, h₃, ?_⟩
  rw [valueIn, Value.lookupText, h₄]
  rfl

end Key

/-! ## Paths in arrays -/

namespace Value

theorem lookup_array {name : String} (h₁ : name ≠ "count") (h₂ : name ≠ "length")
    (items : List Value) : (array items).lookup name = array (items.map (lookup name)) := by
  rw [lookup, if_neg (by simp [h₁, h₂]), lookupEach_eq_map]

theorem lookupPath_array {names : List String} (h₁ : names ≠ []) (h₂ : names.getLast h₁ ≠ "")
    (h₃ : ∀ name ∈ names, name ≠ "count" ∧ name ≠ "length") (items : List Value) :
    lookupPath names (array items) = array (items.map (lookupPath names)) := by
  induction names generalizing items with
  | nil => exact absurd rfl h₁
  | cons name names ih =>
    obtain ⟨h₄, h₅⟩ := h₃ name (by simp)
    by_cases h : names = []
    · subst h
      have h₆ : lookupPath [name] = lookup name := funext fun v => if_neg h₂
      rw [h₆, lookup_array h₄ h₅]
    · -- one name is looked up in all elements, and then the others in all that was found
      have h₆ : lookupPath (name :: names) = lookupPath names ∘ lookup name :=
        funext (lookupPath_cons name h)
      rw [lookupPath_cons name h, lookup_array h₄ h₅,
        ih h (by rwa [List.getLast_cons h] at h₂) fun n hn => h₃ n (List.mem_cons_of_mem _ hn),
        List.map_map, h₆]

/-- A path without empty names, and without the names by which an array tells its length, is
followed in an array by following it in every element. -/
theorem lookupText_array {path : String}
    (h : ∀ name ∈ Text.splitAt '.' path, name ≠ "" ∧ name ≠ "count" ∧ name ≠ "length")
    (items : List Value) :
    (array items).lookupText path = array (items.map (lookupText path)) := by
  have h₁ := Text.splitAt_ne_nil '.' path
  have h₂ : (Text.splitAt '.' path).getLast h₁ ≠ "" := (h _ (List.getLast_mem h₁)).1
  exact lookupPath_array h₁ h₂ (fun name hn => (h name hn).2) items

/-- Elements in which the path ends early, at null or at a number, and an array among them. -/
theorem lookupText_array_nested :
    let city (v : Value) : Value := .map [("address", .map [("city", v)])]
    let items : List Value := [city (.string "Oz"), .null, .map [("address", .null)],
      .array [.keyed "Duck" ⟨[("address", .array [.bool true])], "quack"⟩, city .null], .bool false]
    (∀ name ∈ Text.splitAt '.' "address.city", name ≠ "" ∧ name ≠ "count" ∧ name ≠ "length") ∧
      (array items).lookupText "address.city" = array (items.map (lookupText "address.city")) ∧
      (array items).lookupText "address.city" = array [.string "Oz", .missing, .missing,
        .array [.array [.missing], .null], .missing] := by
  intro city items
  have h₁ : Text.splitAt '.' "address.city" = ["address", "city"] := by decide
  have h₂ : ∀ name ∈ Text.splitAt '.' "address.city",
      name ≠ "" ∧ name ≠ "count" ∧ name ≠ "length" := by
    rw [h₁]
    decide
  refine ⟨h₂, lookupText_array h₂ items, ?_⟩
  rw [lookupText, h₁]
  rfl

end Value

end RecordQuery
