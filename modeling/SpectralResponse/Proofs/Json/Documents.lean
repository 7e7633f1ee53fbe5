import SpectralResponse.Proofs.Json.Tokens
import Mathlib.Data.List.DropRight
import Mathlib.Data.List.Forall2

/-!
# JSON documents are read back

A value that is written, in either layout, is read as the same value. The writer leaves open how a real
number is written; of every real number in the value it is asked that its text alone is read as this
number (`Legible`). Everything else, down to the kind of each number, is kept by the library's own text.

Values, items and members are read by functions that call each other with less and less fuel. Two calls
are made for a character at most, so a text that is read as a value (`ReadsAs`) is read with twice its
length as fuel; `items?_intercalate` and `members?_intercalate` carry this over lists and objects.

## What is proved

* `parse?_render` — a legible value on one line is read back.
* `parse?_pretty` — a legible value on lines of its own is read back.
-/

namespace SpectralResponse.Json

variable {α : Type}

/-! ### Blanks -/

theorem skipBlanks_append {blanks : List Char} (h : ∀ c ∈ blanks, isBlank c) (cs : List Char) :
    skipBlanks (blanks ++ cs) = skipBlanks cs := List.dropWhile_append_of_pos h

theorem skipBlanks_cons {c : Char} (h : isBlank c = false) (cs : List Char) :
    skipBlanks (c :: cs) = c :: cs := by simp [skipBlanks, h]

theorem skipBlanks_skipBlanks (cs : List Char) : skipBlanks (skipBlanks cs) = skipBlanks cs :=
  List.dropWhile_idempotent isBlank cs

theorem isEnd_blanks_append {blanks rest : List Char} (h : ∀ c ∈ blanks, isBlank c) (hrest : IsEnd rest) :
    IsEnd (blanks ++ rest) := by
  cases blanks with
  | nil => exact hrest
  | cons c blanks => exact isEnd_cons.2 (.inl (h c List.mem_cons_self))

variable [Scalar α]

/-! ### One step of the reader -/

theorem value?_null (fuel : Nat) (rest : List Char) :
    value? (α := α) (fuel + 1) ('n' :: 'u' :: 'l' :: 'l' :: rest) = some (null, rest) := rfl

theorem value?_true (fuel : Nat) (rest : List Char) :
    value? (α := α) (fuel + 1) ('t' :: 'r' :: 'u' :: 'e' :: rest) = some (bool true, rest) := rfl

theorem value?_false (fuel : Nat) (rest : List Char) :
    value? (α := α) (fuel + 1) ('f' :: 'a' :: 'l' :: 's' :: 'e' :: rest) = some (bool false, rest) := rfl

theorem value?_quote (fuel : Nat) (rest : List Char) :
    value? (α := α) (fuel + 1) ('"' :: rest) =
      (quoted? (rest.length + 1) (some []) rest).map fun (read, rest) =>
        (read.elim broken text, rest) := rfl

theorem value?_list (fuel : Nat) (rest : List Char) :
    value? (α := α) (fuel + 1) ('[' :: rest) =
      match skipBlanks rest with
      | ']' :: rest => some (list [], rest)
      | rest => items? fuel [] rest := rfl

theorem value?_object (fuel : Nat) (rest : List Char) :
    value? (α := α) (fuel + 1) ('\x7b' :: rest) =
      match skipBlanks rest with
      | '\x7d' :: rest => some (object [], rest)
      | rest => members? fuel (some []) rest := rfl

/-- No value starts with the bracket that closes a list. -/
theorem value?_closing (fuel : Nat) (rest : List Char) :
    value? (α := α) (fuel + 1) (']' :: rest) = none := rfl

/-- Where a number stands, it is read as a number. -/
theorem value?_eq_number? {c : Char} (h : c = '-' ∨ c.isDigit) (fuel : Nat) (cs : List Char) :
    value? (α := α) (fuel + 1) (c :: cs) = number? (c :: cs) := by
  have hblank : isBlank c = false := by
    by_contra hblank
    simp only [isBlank, Bool.not_eq_false, Bool.or_eq_true, beq_iff_eq] at hblank
    rcases hblank with ((rfl | rfl) | rfl) | rfl <;> simp at h
  rw [value?, skipBlanks_cons hblank]
  split <;> simp_all

theorem items?_succ (fuel : Nat) (read : List (Json α)) (cs : List Char) :
    items? (fuel + 1) read cs = (value? fuel cs).bind fun (item, rest) =>
      match skipBlanks rest with
      | ',' :: rest => items? fuel (item :: read) rest
      | ']' :: rest => some (list (item :: read).reverse, rest)
      | _ => none := rfl

theorem value?_skipBlanks (fuel : Nat) (cs : List Char) :
    value? (α := α) fuel (skipBlanks cs) = value? fuel cs := by
  cases fuel with
  | zero => rfl
  | succ fuel => rw [value?, value?, skipBlanks_skipBlanks]

theorem items?_skipBlanks (fuel : Nat) (read : List (Json α)) (cs : List Char) :
    items? fuel read (skipBlanks cs) = items? fuel read cs := by
  cases fuel with
  | zero => rfl
  | succ fuel => rw [items?_succ, items?_succ, value?_skipBlanks]

theorem members?_skipBlanks (fuel : Nat) (read : Option (List (String × Json α))) (cs : List Char) :
    members? fuel read (skipBlanks cs) = members? fuel read cs := by
  cases fuel with
  | zero => rfl
  | succ fuel => rw [members?, members?, skipBlanks_skipBlanks]

theorem items?_blanks_append {blanks : List Char} (h : ∀ c ∈ blanks, isBlank c) (fuel : Nat)
    (read : List (Json α)) (cs : List Char) :
    items? fuel read (blanks ++ cs) = items? fuel read cs := by
  rw [← items?_skipBlanks, skipBlanks_append h, items?_skipBlanks]

theorem members?_blanks_append {blanks : List Char} (h : ∀ c ∈ blanks, isBlank c) (fuel : Nat)
    (read : Option (List (String × Json α))) (cs : List Char) :
    members? fuel read (blanks ++ cs) = members? fuel read cs := by
  rw [← members?_skipBlanks, skipBlanks_append h, members?_skipBlanks]

/-! ### Texts that are read as a value -/

/-- The text is read as the value, whatever follows its end. -/
def ReadsAs (cs : List Char) (j : Json α) : Prop :=
  ∀ fuel rest, 2 * cs.length ≤ fuel → IsEnd rest → value? fuel (cs ++ rest) = some (j, rest)

theorem ReadsAs.blanks_append {blanks cs : List Char} {j : Json α} (h : ReadsAs cs j)
    (hblanks : ∀ c ∈ blanks, isBlank c) : ReadsAs (blanks ++ cs) j := by
  intro fuel rest hfuel hrest
  rw [List.length_append] at hfuel
  rw [List.append_assoc, ← value?_skipBlanks, skipBlanks_append hblanks, value?_skipBlanks]
  exact h fuel rest (by omega) hrest

/-- A text of at least one character is read with fuel. -/
theorem readsAs_of_succ {c : Char} {cs : List Char} {j : Json α}
    (h : ∀ fuel rest, 2 * cs.length + 1 ≤ fuel → IsEnd rest →
      value? (fuel + 1) (c :: (cs ++ rest)) = some (j, rest)) : ReadsAs (c :: cs) j := by
  intro fuel rest hfuel hrest
  rw [List.length_cons] at hfuel
  obtain ⟨fuel, rfl⟩ := Nat.exists_eq_succ_of_ne_zero (show fuel ≠ 0 by omega)
  exact h fuel rest (by omega) hrest

theorem readsAs_null : ReadsAs ['n', 'u', 'l', 'l'] (null : Json α) :=
  readsAs_of_succ fun fuel rest _ _ => value?_null fuel rest

theorem readsAs_true : ReadsAs ['t', 'r', 'u', 'e'] (bool true : Json α) :=
  readsAs_of_succ fun fuel rest _ _ => value?_true fuel rest

theorem readsAs_false : ReadsAs ['f', 'a', 'l', 's', 'e'] (bool false : Json α) :=
  readsAs_of_succ fun fuel rest _ _ => value?_false fuel rest

theorem readsAs_of_number? {cs : List Char} {j : Json α} (h : number? cs = some (j, [])) :
    ReadsAs cs j := by
  obtain ⟨c, cs, rfl, hc⟩ := head_of_number? h
  apply readsAs_of_succ
  intro fuel rest _ hrest
  rw [value?_eq_number? hc, ← List.cons_append, number?_append h hrest]
  rfl

theorem readsAs_quote (s : String) : ReadsAs (quote s).toList (text s : Json α) := by
  have hlength := length_le_flatMap_escaped s.toList
  rw [toList_quote, List.cons_append]
  apply readsAs_of_succ
  intro fuel rest _ _
  rw [value?_quote, List.append_assoc, List.singleton_append,
    quoted?_flatMap_escaped _ _ _ (by rw [List.length_append]; omega)]
  simp

/-! ### Lists -/

/-- A list with items is read item by item. -/
theorem value?_of_items? {fuel : Nat} {cs rest : List Char} {j : Json α}
    (h : items? fuel [] cs = some (j, rest)) : value? (fuel + 1) ('[' :: cs) = some (j, rest) := by
  rw [← items?_skipBlanks] at h
  rw [value?_list]
  split
  next more hmore =>
    rw [hmore] at h
    rcases fuel with _ | _ | fuel
    · cases h
    · cases h
    · rw [items?_succ, value?_closing] at h
      cases h
  next => exact h

theorem readsAs_list_nil : ReadsAs ['[', ']'] (list [] : Json α) :=
  readsAs_of_succ fun _ _ _ _ => rfl

/-- The items of a list are read one after another. -/
theorem items?_intercalate {lead trail : List Char} (hlead : ∀ c ∈ lead, isBlank c)
    (htrail : ∀ c ∈ trail, isBlank c) {parts : List (List Char)} {items : List (Json α)}
    (h : List.Forall₂ ReadsAs parts items) (hne : parts ≠ []) (read : List (Json α)) {fuel : Nat}
    (hfuel : 2 * ((',' :: lead).intercalate parts).length + 3 ≤ fuel) (rest : List Char) :
    items? fuel read ((',' :: lead).intercalate parts ++ (trail ++ ']' :: rest)) =
      some (list (read.reverse ++ items), rest) := by
  induction h generalizing read fuel with
  | nil => exact absurd rfl hne
  | @cons part item parts items hpart hparts ih =>
    -- A part takes fuel for its own characters; the comma after it pays for the call that reads on.
    obtain ⟨fuel, rfl⟩ := Nat.exists_eq_succ_of_ne_zero (show fuel ≠ 0 by omega)
    rw [items?_succ]
    cases hparts with
    | nil =>
      have hend : IsEnd (trail ++ ']' :: rest) :=
        isEnd_blanks_append htrail (isEnd_bracket rest)
      rw [List.intercalate_singleton] at hfuel ⊢
      rw [hpart fuel _ (by omega) hend]
      simp [skipBlanks_append htrail, skipBlanks_cons (show isBlank ']' = false from rfl)]
    | cons hnext hmore =>
      rw [List.intercalate_cons_cons] at hfuel ⊢
      simp only [List.length_append, List.length_cons] at hfuel
      rw [List.append_assoc, List.append_assoc, List.cons_append,
        hpart fuel _ (by omega) (isEnd_comma _)]
      simp only [Option.bind_some, skipBlanks_cons (show isBlank ',' = false from rfl)]
      rw [items?_blanks_append hlead, ih (List.cons_ne_nil _ _) _ (by omega)]
      simp

/-- The characters of parts between brackets, with blanks before and after each part. -/
theorem toList_between (opening lead trail closing : String) (parts : List String) :
    (opening ++ lead ++ Text.joined ("," ++ lead) parts ++ trail ++ closing).toList =
      opening.toList ++ (lead.toList ++ ((',' :: lead.toList).intercalate (parts.map String.toList) ++
        (trail.toList ++ closing.toList))) := by
  simp [Text.joined, String.toList_intercalate]

/-- A list with items between brackets is read as this list. -/
theorem readsAs_list (lead trail : String) (hlead : ∀ c ∈ lead.toList, isBlank c)
    (htrail : ∀ c ∈ trail.toList, isBlank c) {parts : List String} {items : List (Json α)}
    (h : List.Forall₂ (fun part j => ReadsAs part.toList j) parts items) (hne : parts ≠ []) :
    ReadsAs ("[" ++ lead ++ Text.joined ("," ++ lead) parts ++ trail ++ "]").toList (list items) := by
  have hopening : "[".toList = ['['] := rfl
  have hclosing : "]".toList = [']'] := rfl
  rw [toList_between, hopening, hclosing, List.singleton_append]
  apply readsAs_of_succ
  intro fuel rest hfuel _
  simp only [List.length_append, List.length_singleton] at hfuel
  apply value?_of_items?
  simp only [List.append_assoc, List.singleton_append]
  rw [items?_blanks_append hlead, items?_intercalate hlead htrail (List.forall₂_map_left_iff.2 h)
    (by simpa using hne) [] (by omega)]
  rfl

/-! ### Objects -/

/-- The text is read as a member of an object: its name in quotes, a colon and its value. -/
def ReadsAsMember (cs : List Char) (m : String × Json α) : Prop :=
  ∃ value, cs = (quote m.1).toList ++ ':' :: value ∧ ReadsAs value m.2

/-- An object with members is read member by member. -/
theorem value?_of_members? {fuel : Nat} {cs rest : List Char} {j : Json α}
    (h : members? fuel (some []) cs = some (j, rest)) :
    value? (fuel + 1) ('\x7b' :: cs) = some (j, rest) := by
  rw [← members?_skipBlanks] at h
  rw [value?_object]
  split
  next more hmore =>
    rw [hmore] at h
    cases fuel <;> cases h
  next => exact h

theorem readsAs_object_nil : ReadsAs ['\x7b', '\x7d'] (object [] : Json α) :=
  readsAs_of_succ fun _ _ _ _ => rfl

/-- Reads the first of several members. -/
theorem members?_member {cs : List Char} {m : String × Json α} (h : ReadsAsMember cs m)
    (read : List (String × Json α)) {fuel : Nat} (hfuel : 2 * cs.length ≤ fuel) {rest : List Char}
    (hrest : IsEnd rest) :
    members? (fuel + 1) (some read) (cs ++ rest) =
      match skipBlanks rest with
      | ',' :: rest => members? fuel (some (m :: read)) rest
      | '\x7d' :: rest => some (object (m :: read).reverse, rest)
      | _ => none := by
  obtain ⟨name, j⟩ := m
  obtain ⟨value, rfl, hvalue⟩ := h
  have hlength := length_le_flatMap_escaped name.toList
  simp only [List.length_append, List.length_cons] at hfuel
  rw [members?, toList_quote]
  simp only [List.cons_append, List.nil_append, List.append_assoc,
    skipBlanks_cons (show isBlank '"' = false from rfl)]
  rw [quoted?_flatMap_escaped _ _ _ (by rw [List.length_append]; omega)]
  simp only [Option.bind_eq_bind, Option.bind_some,
    skipBlanks_cons (show isBlank ':' = false from rfl)]
  rw [hvalue fuel rest (by omega) hrest]
  simp only [Option.bind_some, List.reverse_nil, List.nil_append, String.ofList_toList]
  rfl

/-- The members of an object are read one after another. -/
theorem members?_intercalate {lead trail : List Char} (hlead : ∀ c ∈ lead, isBlank c)
    (htrail : ∀ c ∈ trail, isBlank c) {parts : List (List Char)} {members : List (String × Json α)}
    (h : List.Forall₂ ReadsAsMember parts members) (hne : parts ≠ [])
    (read : List (String × Json α)) {fuel : Nat}
    (hfuel : 2 * ((',' :: lead).intercalate parts).length + 3 ≤ fuel) (rest : List Char) :
    members? fuel (some read) ((',' :: lead).intercalate parts ++ (trail ++ '\x7d' :: rest)) =
      some (object (read.reverse ++ members), rest) := by
  induction h generalizing read fuel with
  | nil => exact absurd rfl hne
  | @cons part member parts members hpart hparts ih =>
    obtain ⟨fuel, rfl⟩ := Nat.exists_eq_succ_of_ne_zero (show fuel ≠ 0 by omega)
    cases hparts with
    | nil =>
      have hend : IsEnd (trail ++ '\x7d' :: rest) :=
        isEnd_blanks_append htrail (isEnd_brace rest)
      rw [List.intercalate_singleton] at hfuel ⊢
      rw [members?_member hpart read (by omega) hend]
      simp [skipBlanks_append htrail, skipBlanks_cons (show isBlank '\x7d' = false from rfl)]
    | cons hnext hmore =>
      rw [List.intercalate_cons_cons] at hfuel ⊢
      simp only [List.length_append, List.length_cons] at hfuel
      rw [List.append_assoc, List.append_assoc, List.cons_append,
        members?_member hpart read (by omega) (isEnd_comma _)]
      simp only [skipBlanks_cons (show isBlank ',' = false from rfl)]
      rw [members?_blanks_append hlead, ih (List.cons_ne_nil _ _) _ (by omega)]
      simp

/-- Members between braces are read as the object of them. -/
theorem readsAs_object (lead trail : String) (hlead : ∀ c ∈ lead.toList, isBlank c)
    (htrail : ∀ c ∈ trail.toList, isBlank c) {parts : List String}
    {members : List (String × Json α)}
    (h : List.Forall₂ (fun part m => ReadsAsMember part.toList m) parts members)
    (hne : parts ≠ []) :
    ReadsAs ("\x7b" ++ lead ++ Text.joined ("," ++ lead) parts ++ trail ++ "\x7d").toList
      (object members) := by
  have hopening : "\x7b".toList = ['\x7b'] := rfl
  have hclosing : "\x7d".toList = ['\x7d'] := rfl
  rw [toList_between, hopening, hclosing, List.singleton_append]
  apply readsAs_of_succ
  intro fuel rest hfuel _
  simp only [List.length_append, List.length_singleton] at hfuel
  apply value?_of_members?
  simp only [List.append_assoc, List.singleton_append]
  rw [members?_blanks_append hlead, members?_intercalate hlead htrail
    (List.forall₂_map_left_iff.2 h) (by simpa using hne) [] (by omega)]
  rfl

/-- A text that is read as a value is the whole document of this value. -/
theorem parse?_of_readsAs {source : String} {j : Json α} (h : ReadsAs source.toList j) :
    parse? source = some j := by
  have hread := h (2 * source.toList.length + 2) [] (Nat.le_add_right _ _) isEnd_nil
  rw [List.append_nil] at hread
  rw [parse?]
  simp only [hread, Option.bind_eq_bind, Option.bind_some]
  rfl

/-! ### Values that keep what they are -/

/-- A value that its text tells: whole numbers are in the range of the reader, and the text of every
real number is read as this number. -/
inductive Legible (realText : α → String) : Json α → Prop where
  /-- Nothing. -/
  | null : Legible realText null
  /-- A truth value. -/
  | bool (value : Bool) : Legible realText (bool value)
  /-- A whole number. -/
  | whole {value : Int} (lo : Scalar.minWord ≤ value) (hi : value ≤ maxNatural) :
    Legible realText (whole value)
  /-- A real number. -/
  | real {value : α} (read : number? (realText value).toList = some (real value, [])) :
    Legible realText (real value)
  /-- A text. -/
  | text (value : String) : Legible realText (text value)
  /-- A list of such values. -/
  | list {items : List (Json α)} (all : ∀ j ∈ items, Legible realText j) :
    Legible realText (list items)
  /-- An object with such values. -/
  | object {members : List (String × Json α)} (all : ∀ m ∈ members, Legible realText m.2) :
    Legible realText (object members)

variable {realText : α → String} {j : Json α}

/-! ### One line -/

theorem readsAs_bracketed_items {parts : List String} {items : List (Json α)}
    (h : List.Forall₂ (fun part j => ReadsAs part.toList j) parts items) :
    ReadsAs (bracketed "[" "]" parts).toList (list items) := by
  cases h with
  | nil => exact readsAs_list_nil
  | cons hpart hparts =>
    have hread := readsAs_list "" "" (by simp) (by simp) (.cons hpart hparts) (List.cons_ne_nil _ _)
    simpa only [bracketed, String.append_empty] using hread

theorem readsAs_bracketed_members {parts : List String} {members : List (String × Json α)}
    (h : List.Forall₂ (fun part m => ReadsAsMember part.toList m) parts members) :
    ReadsAs (bracketed "\x7b" "\x7d" parts).toList (object members) := by
  cases h with
  | nil => exact readsAs_object_nil
  | cons hpart hparts =>
    have hread := readsAs_object "" "" (by simp) (by simp) (.cons hpart hparts)
      (List.cons_ne_nil _ _)
    simpa only [bracketed, String.append_empty] using hread

omit [Scalar α] in
theorem renderItems_eq_map (items : List (Json α)) :
    renderItems realText items = items.map (render realText) := by
  induction items with
  | nil => rfl
  | cons j items ih => rw [renderItems, ih, List.map_cons]

omit [Scalar α] in
theorem renderMembers_eq_map (members : List (String × Json α)) :
    renderMembers realText members =
      members.map fun m => quote m.1 ++ ":" ++ render realText m.2 := by
  induction members with
  | nil => rfl
  | cons m members ih => rw [renderMembers, ih, List.map_cons]

theorem Legible.readsAs_render (h : Legible realText j) : ReadsAs (j.render realText).toList j := by
  induction h with
  | null => simpa [render] using readsAs_null (α := α)
  | bool value =>
    cases value
    · simpa [render] using readsAs_false (α := α)
    · simpa [render] using readsAs_true (α := α)
  | whole lo hi => exact readsAs_of_number? (number?_toString lo hi)
  | real read => exact readsAs_of_number? read
  | text value => exact readsAs_quote value
  | list all ih =>
    rw [render, renderItems_eq_map]
    exact readsAs_bracketed_items (List.forall₂_map_left_iff.2 (List.forall₂_same.2 ih))
  | object all ih =>
    rw [render, renderMembers_eq_map]
    refine readsAs_bracketed_members (List.forall₂_map_left_iff.2 (List.forall₂_same.2 ?_))
    intro m hm
    exact ⟨(render realText m.2).toList, by simp, ih m hm⟩

/-- A legible value on one line is read back. -/
theorem parse?_render (h : Legible realText j) : parse? (j.render realText) = some j :=
  parse?_of_readsAs h.readsAs_render

/-! ### Lines of their own -/

omit [Scalar α] in
theorem isBlank_of_mem_newLine (level : Nat) : ∀ c ∈ (newLine level).toList, isBlank c := by
  intro c hc
  rw [newLine, String.toList_append] at hc
  rcases List.mem_append.1 hc with hbreak | hindent
  · have hc : c = '\n' := by simpa using hbreak
    rw [hc]
    rfl
  · rw [String.toList_ofList] at hindent
    rw [List.eq_of_mem_replicate hindent]
    rfl

theorem readsAs_block_items {parts : List String} {items : List (Json α)} (level : Nat)
    (h : List.Forall₂ (fun part j => ReadsAs part.toList j) parts items) :
    ReadsAs (block "[" "]" level parts).toList (list items) := by
  cases h with
  | nil => simpa [block] using readsAs_list_nil (α := α)
  | cons hpart hparts =>
    exact readsAs_list _ _ (isBlank_of_mem_newLine _) (isBlank_of_mem_newLine _)
      (.cons hpart hparts) (List.cons_ne_nil _ _)

theorem readsAs_block_members {parts : List String} {members : List (String × Json α)} (level : Nat)
    (h : List.Forall₂ (fun part m => ReadsAsMember part.toList m) parts members) :
    ReadsAs (block "\x7b" "\x7d" level parts).toList (object members) := by
  cases h with
  | nil => simpa [block] using readsAs_object_nil (α := α)
  | cons hpart hparts =>
    exact readsAs_object _ _ (isBlank_of_mem_newLine _) (isBlank_of_mem_newLine _)
      (.cons hpart hparts) (List.cons_ne_nil _ _)

omit [Scalar α] in
theorem prettyItems_eq_map (level : Nat) (items : List (Json α)) :
    prettyItems realText level items = items.map (pretty realText level) := by
  induction items with
  | nil => rfl
  | cons j items ih => rw [prettyItems, ih, List.map_cons]

omit [Scalar α] in
theorem prettyMembers_eq_map (level : Nat) (members : List (String × Json α)) :
    prettyMembers realText level members =
      members.map fun m => quote m.1 ++ ": " ++ pretty realText level m.2 := by
  induction members with
  | nil => rfl
  | cons m members ih => rw [prettyMembers, ih, List.map_cons]

theorem Legible.readsAs_pretty (h : Legible realText j) (level : Nat) :
    ReadsAs (j.pretty realText level).toList j := by
  induction h generalizing level with
  | null => exact (Legible.null : Legible realText _).readsAs_render
  | bool value => exact (Legible.bool value : Legible realText _).readsAs_render
  | whole lo hi => exact (Legible.whole lo hi : Legible realText _).readsAs_render
  | real read => exact (Legible.real read).readsAs_render
  | text value => exact (Legible.text value : Legible realText _).readsAs_render
  | list all ih =>
    rw [pretty, prettyItems_eq_map]
    exact readsAs_block_items level <| List.forall₂_map_left_iff.2 <| List.forall₂_same.2
      fun j hj => ih j hj (level + 1)
  | object all ih =>
    rw [pretty, prettyMembers_eq_map]
    refine readsAs_block_members level (List.forall₂_map_left_iff.2 (List.forall₂_same.2 ?_))
    intro m hm
    have hvalue : ReadsAs ([' '] ++ (pretty realText (level + 1) m.2).toList) m.2 :=
      (ih m hm (level + 1)).blanks_append (by simp [isBlank])
    exact ⟨_, by simp, hvalue⟩

/-- A legible value on lines of its own is read back. -/
theorem parse?_pretty (h : Legible realText j) (level : Nat) :
    parse? (j.pretty realText level) = some j := parse?_of_readsAs (h.readsAs_pretty level)

end SpectralResponse.Json
