import EnboxDwn.Lib.NumberText

/-! JSON values and their text: strings as UTF-16 code units, quoted with escapes, and each value
written without spaces. A text can be read in one way only. -/

abbrev CodeUnit := Fin 65536

abbrev Utf16 := List CodeUnit

instance neZero_codeUnits : NeZero 65536 := ⟨by decide⟩

instance lawfulBEq_utf16 : LawfulBEq Utf16 := inferInstance

namespace Utf16

def ascii (s : String) : Utf16 := s.toList.map fun c => Fin.ofNat 65536 c.toNat

/-! ## Quoted strings -/

def isLead (u : CodeUnit) : Bool := 0xD800 ≤ u.val && u.val ≤ 0xDBFF

def isTrail (u : CodeUnit) : Bool := 0xDC00 ≤ u.val && u.val ≤ 0xDFFF

def hexDigit (n : Nat) : CodeUnit := Fin.ofNat 65536 (if n < 10 then 48 + n else 87 + n)

/-- A backslash, `u` and four hexadecimal digits. -/
def escapeUnicode (u : CodeUnit) : Utf16 :=
  [92, 117, hexDigit (u.val / 4096), hexDigit (u.val / 256 % 16), hexDigit (u.val / 16 % 16),
    hexDigit (u.val % 16)]

/-- The letter of a short escape. -/
def shortEscape (u : CodeUnit) : Option CodeUnit :=
  if u = 8 then some 98
  else if u = 9 then some 116
  else if u = 10 then some 110
  else if u = 12 then some 102
  else if u = 13 then some 114
  else if u = 34 then some 34
  else if u = 92 then some 92
  else none

/-- A code unit that is not half of a pair: halves alone and controls are escaped. -/
def escapeUnit (u : CodeUnit) : Utf16 :=
  match shortEscape u with
  | some letter => [92, letter]
  | none => if u.val < 32 || isLead u || isTrail u then escapeUnicode u else [u]

def escape : Utf16 → Utf16
  | [] => []
  | [u] => escapeUnit u
  | u :: v :: rest =>
    if isLead u && isTrail v then u :: v :: escape rest else escapeUnit u ++ escape (v :: rest)

def quote (s : Utf16) : Utf16 := 34 :: (escape s ++ [34])

def hexValue (u : CodeUnit) : Nat := if u.val < 58 then u.val - 48 else u.val - 87

/-- The code unit that a short escape stands for. -/
def ofShortEscape (letter : CodeUnit) : CodeUnit :=
  if letter = 98 then 8
  else if letter = 116 then 9
  else if letter = 110 then 10
  else if letter = 102 then 12
  else if letter = 114 then 13
  else letter

/-- Reads up to the closing quote. -/
def readString : Utf16 → Option (Utf16 × Utf16)
  | [] => none
  | 34 :: rest => some ([], rest)
  | 92 :: 117 :: a :: b :: c :: d :: rest =>
    let u := ((hexValue a * 16 + hexValue b) * 16 + hexValue c) * 16 + hexValue d
    (readString rest).map fun r => (Fin.ofNat 65536 u :: r.1, r.2)
  | 92 :: letter :: rest => (readString rest).map fun r => (ofShortEscape letter :: r.1, r.2)
  | u :: rest => (readString rest).map fun r => (u :: r.1, r.2)

attribute [local simp] escape readString

theorem hexValue_hexDigit {n : Nat} (h : n < 16) : hexValue (hexDigit n) = n := by
  by_cases hsmall : n < 10
  · have hval : (hexDigit n).val = 48 + n := by
      simp only [hexDigit, if_pos hsmall, Fin.val_ofNat]
      omega
    rw [hexValue, hval, if_pos (by omega)]
    omega
  · have hval : (hexDigit n).val = 87 + n := by
      simp only [hexDigit, if_neg hsmall, Fin.val_ofNat]
      omega
    rw [hexValue, hval, if_neg (by omega)]
    omega

theorem readString_escapeUnicode (u : CodeUnit) (rest : Utf16) :
    readString (escapeUnicode u ++ rest) = (readString rest).map fun r => (u :: r.1, r.2) := by
  have hu := u.isLt
  have hvalue : Fin.ofNat 65536 ((((u.val / 4096) * 16 + u.val / 256 % 16) * 16 +
      u.val / 16 % 16) * 16 + u.val % 16) = u := by
    apply Fin.ext
    simp only [Fin.val_ofNat]
    omega
  simp only [escapeUnicode, List.cons_append, List.nil_append, readString]
  rw [hexValue_hexDigit (by omega), hexValue_hexDigit (by omega), hexValue_hexDigit (by omega),
    hexValue_hexDigit (by omega), hvalue]

theorem readString_plain {u : CodeUnit} (hquote : u ≠ 34) (hescape : u ≠ 92) (rest : Utf16) :
    readString (u :: rest) = (readString rest).map fun r => (u :: r.1, r.2) := by
  rw [readString.eq_def]
  split
  · rename_i heq
    cases heq
  · rename_i heq
    exact absurd (List.cons.inj heq).1 hquote
  · rename_i heq
    exact absurd (List.cons.inj heq).1 hescape
  · rename_i heq
    exact absurd (List.cons.inj heq).1 hescape
  · rename_i heq
    cases heq
    rfl

theorem readString_short {letter : CodeUnit} (h : letter ≠ 117) (rest : Utf16) :
    readString (92 :: letter :: rest) =
      (readString rest).map fun r => (ofShortEscape letter :: r.1, r.2) := by
  rw [readString.eq_def]
  split
  · rename_i heq
    cases heq
  · rename_i heq
    simp at heq
  · rename_i heq
    simp only [List.cons.injEq] at heq
    exact absurd heq.2.1 h
  · rename_i heq
    cases heq
    rfl
  · rename_i hnot heq
    cases heq
    exact absurd rfl (hnot letter rest rfl)

theorem shortEscape_some {u letter : CodeUnit} (h : shortEscape u = some letter) :
    ofShortEscape letter = u ∧ letter ≠ 117 := by
  simp only [shortEscape] at h
  split_ifs at h with h1 h2 h3 h4 h5 h6 h7
  all_goals
    cases h
    subst_vars
    decide

theorem shortEscape_none {u : CodeUnit} (h : shortEscape u = none) : u ≠ 34 ∧ u ≠ 92 := by
  constructor
  · intro heq
    subst heq
    exact absurd h (by decide)
  · intro heq
    subst heq
    exact absurd h (by decide)

theorem readString_escapeUnit (u : CodeUnit) (rest : Utf16) :
    readString (escapeUnit u ++ rest) = (readString rest).map fun r => (u :: r.1, r.2) := by
  cases hshort : shortEscape u with
  | some letter =>
    obtain ⟨hvalue, hletter⟩ := shortEscape_some hshort
    simp only [escapeUnit, hshort, List.cons_append, List.nil_append]
    rw [readString_short hletter, hvalue]
  | none =>
    obtain ⟨hquote, hescape⟩ := shortEscape_none hshort
    simp only [escapeUnit, hshort]
    split
    · exact readString_escapeUnicode u rest
    · exact readString_plain hquote hescape rest

theorem surrogate_plain {u : CodeUnit} (h : isLead u = true ∨ isTrail u = true) :
    u ≠ 34 ∧ u ≠ 92 := by
  constructor
  · intro heq
    subst heq
    exact absurd h (by decide)
  · intro heq
    subst heq
    exact absurd h (by decide)

theorem readString_escape (s rest : Utf16) :
    readString (escape s ++ 34 :: rest) = some (s, rest) := by
  induction s using escape.induct with
  | case1 => simp
  | case2 u =>
    rw [escape, readString_escapeUnit]
    simp
  | case3 u v tail hpair ih =>
    rw [escape, if_pos hpair]
    rw [Bool.and_eq_true] at hpair
    obtain ⟨hu, hu'⟩ := surrogate_plain (.inl hpair.1)
    obtain ⟨hv, hv'⟩ := surrogate_plain (.inr hpair.2)
    rw [List.cons_append, List.cons_append, readString_plain hu hu', readString_plain hv hv', ih]
    rfl
  | case4 u v tail hpair ih =>
    rw [escape, if_neg hpair, List.append_assoc, readString_escapeUnit, ih]
    rfl

/-- A quoted string ends where its quote ends. -/
theorem quote_append_inj {s t r r' : Utf16} (h : quote s ++ r = quote t ++ r') : s = t ∧ r = r' := by
  simp only [quote, List.cons_append, List.append_assoc, List.nil_append, List.cons.injEq,
    true_and] at h
  have hread := congrArg readString h
  rw [readString_escape, readString_escape, Option.some.injEq, Prod.mk.injEq] at hread
  exact hread

end Utf16

/-! ## Values -/

inductive Json where
  | null
  | bool (b : Bool)
  | number (x : Number)
  | string (s : Utf16)
  | array (elements : List Json)
  | object (entries : List (Utf16 × Json))

namespace Json
open Utf16

theorem induction {P : Json → Prop} (null : P .null) (bool : ∀ b, P (.bool b))
    (number : ∀ x, P (.number x)) (string : ∀ s, P (.string s))
    (array : ∀ elements, (∀ t ∈ elements, P t) → P (.array elements))
    (object : ∀ entries : List (Utf16 × Json), (∀ e ∈ entries, P e.2) → P (.object entries))
    (t : Json) : P t :=
  Json.rec (motive_1 := P) (motive_2 := fun l => ∀ t ∈ l, P t)
    (motive_3 := fun l => ∀ e ∈ l, P e.2) (motive_4 := fun e => P e.2)
    null bool number string array object
    (by simp) (fun _ _ hhead htail => by simpa using ⟨hhead, htail⟩)
    (by simp) (fun _ _ hhead htail => by
      intro e he
      cases he with
      | head => exact hhead
      | tail _ he => exact htail e he)
    (fun _ _ h => h) t

/-! ## Texts -/

def symbolUnit : Number.Symbol → CodeUnit
  | .digit d => Fin.ofNat 65536 (48 + d.val)
  | .point => 46
  | .exponent => 101
  | .plus => 43
  | .minus => 45

/-- The texts with commas between them. -/
def joined : List Utf16 → Utf16
  | [] => []
  | text :: texts => text ++ texts.flatMap fun text => 44 :: text

mutual

def render : Json → Utf16
  | .null => ascii "null"
  | .bool true => ascii "true"
  | .bool false => ascii "false"
  | .number x => x.symbols.map symbolUnit
  | .string s => quote s
  | .array elements => 91 :: (joined (renderAll elements) ++ [93])
  | .object entries => 123 :: (joined (renderEntries entries) ++ [125])

def renderAll : List Json → List Utf16
  | [] => []
  | t :: ts => render t :: renderAll ts

def renderEntries : List (Utf16 × Json) → List Utf16
  | [] => []
  | (key, value) :: entries => (quote key ++ 58 :: render value) :: renderEntries entries

end

def renderEntry (e : Utf16 × Json) : Utf16 := quote e.1 ++ 58 :: render e.2

theorem renderAll_eq (ts : List Json) : renderAll ts = ts.map render := by
  induction ts with
  | nil => rfl
  | cons t ts ih => rw [renderAll, ih, List.map_cons]

theorem renderEntries_eq (entries : List (Utf16 × Json)) :
    renderEntries entries = entries.map renderEntry := by
  induction entries with
  | nil => rfl
  | cons e entries ih => rw [renderEntries, ih, List.map_cons, renderEntry]

/-! ## A text is read in one way -/

/-- A comma or a closing bracket. -/
def isClosing (u : CodeUnit) : Bool := u = 44 || u = 93 || u = 125

/-- What can come behind a value. -/
def Closed (r : Utf16) : Prop := ∀ u ∈ r.head?, isClosing u = true

/-- The values that begin with a code unit, by number. -/
def kind (u : CodeUnit) : Nat :=
  if u = 110 then 0
  else if u = 116 then 1
  else if u = 102 then 2
  else if u = 34 then 3
  else if u = 91 then 4
  else if u = 123 then 5
  else 6

def kindOf : Json → Nat
  | .null => 0
  | .bool true => 1
  | .bool false => 2
  | .string _ => 3
  | .array _ => 4
  | .object _ => 5
  | .number _ => 6

theorem symbolUnit_plain (x : Number.Symbol) :
    isClosing (symbolUnit x) = false ∧ kind (symbolUnit x) = 6 := by
  cases x with
  | digit d =>
    revert d
    decide
  | _ => decide

theorem symbolUnit_injective : Function.Injective symbolUnit := by
  intro x y h
  cases x with
  | digit d =>
    cases y with
    | digit e =>
      revert d e
      decide
    | _ =>
      revert d
      decide
  | _ =>
    cases y with
    | digit e =>
      revert e
      decide
    | _ => revert h; decide

theorem render_head (t : Json) :
    ∃ u rest, render t = u :: rest ∧ kind u = kindOf t ∧ isClosing u = false := by
  cases t with
  | null => exact ⟨110, _, rfl, rfl, rfl⟩
  | bool b =>
    cases b with
    | true => exact ⟨116, _, rfl, rfl, rfl⟩
    | false => exact ⟨102, _, rfl, rfl, rfl⟩
  | number x =>
    cases hx : x.symbols with
    | nil => exact absurd hx (Number.symbols_ne_nil x)
    | cons a rest =>
      exact ⟨symbolUnit a, rest.map symbolUnit, by simp [render, hx], (symbolUnit_plain a).2,
        (symbolUnit_plain a).1⟩
  | string s => exact ⟨34, _, rfl, rfl, rfl⟩
  | array elements => exact ⟨91, _, rfl, rfl, rfl⟩
  | object entries => exact ⟨123, _, rfl, rfl, rfl⟩

theorem kindOf_eq {t u : Json} {r r' : Utf16} (h : render t ++ r = render u ++ r') :
    kindOf t = kindOf u := by
  obtain ⟨a, rest, ht, hkind, -⟩ := render_head t
  obtain ⟨b, rest', hu, hkind', -⟩ := render_head u
  rw [ht, hu, List.cons_append, List.cons_append, List.cons.injEq] at h
  rw [← hkind, ← hkind', h.1]

theorem append_closed_inj {a b r r' : Utf16} (ha : ∀ u ∈ a, isClosing u = false)
    (hb : ∀ u ∈ b, isClosing u = false) (hr : Closed r) (hr' : Closed r')
    (h : a ++ r = b ++ r') : a = b ∧ r = r' := by
  induction a generalizing b with
  | nil =>
    cases b with
    | nil => exact ⟨rfl, h⟩
    | cons u b =>
      have hclosing := hr u (by rw [List.nil_append] at h; simp [h])
      rw [hb u (by simp)] at hclosing
      cases hclosing
  | cons v a ih =>
    cases b with
    | nil =>
      have hclosing := hr' v (by rw [List.nil_append] at h; simp [← h])
      rw [ha v (by simp)] at hclosing
      cases hclosing
    | cons u b =>
      simp only [List.cons_append, List.cons.injEq] at h
      obtain ⟨heq, hrest⟩ := ih (fun u hu => ha u (by simp [hu])) (fun u hu => hb u (by simp [hu]))
        h.2
      exact ⟨by rw [h.1, heq], hrest⟩

/-- The value or entry is read back wherever it stands. -/
def Readable {α : Type} (text : α → Utf16) (x : α) : Prop :=
  ∀ y r r', Closed r → Closed r' → text x ++ r = text y ++ r' → x = y ∧ r = r'

section Items
variable {α : Type} {text : α → Utf16} {close : CodeUnit}

theorem closed_items (hclose : isClosing close = true) (xs : List α) (r : Utf16) :
    Closed (((xs.map text).flatMap fun text => 44 :: text) ++ close :: r) := by
  intro u hu
  cases xs with
  | nil =>
    cases hu
    exact hclose
  | cons x xs =>
    cases hu
    rfl

theorem items_inj (hclose : isClosing close = true) (hcomma : close ≠ 44) {xs ys : List α}
    (hread : ∀ x ∈ xs, Readable text x) {r r' : Utf16}
    (h : ((xs.map text).flatMap fun text => 44 :: text) ++ close :: r =
      ((ys.map text).flatMap fun text => 44 :: text) ++ close :: r') : xs = ys ∧ r = r' := by
  induction xs generalizing ys with
  | nil =>
    cases ys with
    | nil => exact ⟨rfl, (List.cons.inj h).2⟩
    | cons y ys => exact absurd (List.cons.inj h).1 hcomma
  | cons x xs ih =>
    cases ys with
    | nil => exact absurd (List.cons.inj h).1.symm hcomma
    | cons y ys =>
      simp only [List.map_cons, List.flatMap_cons, List.cons_append, List.append_assoc,
        List.cons.injEq, true_and] at h
      obtain ⟨rfl, hrest⟩ := hread x (by simp) y _ _ (closed_items hclose xs r)
        (closed_items hclose ys r') h
      obtain ⟨rfl, hr⟩ := ih (fun x hx => hread x (by simp [hx])) hrest
      exact ⟨rfl, hr⟩

theorem joined_inj (hclose : isClosing close = true) (hcomma : close ≠ 44)
    (hhead : ∀ x, ∃ u rest, text x = u :: rest ∧ isClosing u = false) {xs ys : List α}
    (hread : ∀ x ∈ xs, Readable text x) {r r' : Utf16}
    (h : joined (xs.map text) ++ close :: r = joined (ys.map text) ++ close :: r') :
    xs = ys ∧ r = r' := by
  have hopen : ∀ (y : α) (rest r r' : Utf16), close :: r ≠ (text y ++ rest) ++ r' := by
    intro y rest r r' heq
    obtain ⟨u, tail, hu, hplain⟩ := hhead y
    rw [hu, List.cons_append, List.cons_append, List.cons.injEq] at heq
    rw [← heq.1, hclose] at hplain
    cases hplain
  cases xs with
  | nil =>
    cases ys with
    | nil => exact ⟨rfl, (List.cons.inj h).2⟩
    | cons y ys => exact absurd h (hopen y _ _ _)
  | cons x xs =>
    cases ys with
    | nil => exact absurd h.symm (hopen x _ _ _)
    | cons y ys =>
      simp only [List.map_cons, joined, List.append_assoc] at h
      obtain ⟨rfl, hrest⟩ := hread x (by simp) y _ _ (closed_items hclose xs r)
        (closed_items hclose ys r') h
      obtain ⟨rfl, hr⟩ := items_inj hclose hcomma (fun x hx => hread x (by simp [hx])) hrest
      exact ⟨rfl, hr⟩

end Items

theorem readable_entry {e : Utf16 × Json} (h : Readable render e.2) : Readable renderEntry e := by
  intro f r r' hr hr' heq
  simp only [renderEntry, List.append_assoc, List.cons_append] at heq
  obtain ⟨hkey, hrest⟩ := quote_append_inj heq
  obtain ⟨hvalue, hend⟩ := h f.2 r r' hr hr' (List.cons.inj hrest).2
  exact ⟨Prod.ext hkey hvalue, hend⟩

theorem renderEntry_head (e : Utf16 × Json) :
    ∃ u rest, renderEntry e = u :: rest ∧ isClosing u = false := ⟨34, _, rfl, rfl⟩

theorem readable (t : Json) : Readable render t := by
  induction t using Json.induction with
  | null =>
    intro u r r' _ _ h
    have hkind := kindOf_eq h
    cases u with
    | null => exact ⟨rfl, List.append_cancel_left h⟩
    | bool b => cases b <;> simp [kindOf] at hkind
    | _ => simp [kindOf] at hkind
  | bool b =>
    intro u r r' _ _ h
    have hkind := kindOf_eq h
    cases u with
    | bool c =>
      cases b <;> cases c <;> simp [kindOf] at hkind
      · exact ⟨rfl, List.append_cancel_left h⟩
      · exact ⟨rfl, List.append_cancel_left h⟩
    | _ => cases b <;> simp [kindOf] at hkind
  | number x =>
    intro u r r' hr hr' h
    have hkind := kindOf_eq h
    have hplain : ∀ (y : Number), ∀ u ∈ y.symbols.map symbolUnit, isClosing u = false := by
      intro y u hu
      obtain ⟨a, -, rfl⟩ := List.mem_map.mp hu
      exact (symbolUnit_plain a).1
    cases u with
    | number y =>
      obtain ⟨hsymbols, hrest⟩ := append_closed_inj (hplain x) (hplain y) hr hr' h
      have heq := Number.symbols_injective
        ((List.map_injective_iff.mpr symbolUnit_injective) hsymbols)
      exact ⟨by rw [heq], hrest⟩
    | bool b => cases b <;> simp [kindOf] at hkind
    | _ => simp [kindOf] at hkind
  | string s =>
    intro u r r' _ _ h
    have hkind := kindOf_eq h
    cases u with
    | string s' =>
      obtain ⟨rfl, hrest⟩ := quote_append_inj h
      exact ⟨rfl, hrest⟩
    | bool b => cases b <;> simp [kindOf] at hkind
    | _ => simp [kindOf] at hkind
  | array elements ih =>
    intro u r r' _ _ h
    have hkind := kindOf_eq h
    cases u with
    | array others =>
      simp only [render, renderAll_eq, List.cons_append, List.append_assoc, List.nil_append,
        List.cons.injEq, true_and] at h
      have hhead : ∀ t, ∃ u rest, render t = u :: rest ∧ isClosing u = false := by
        intro t
        obtain ⟨u, rest, hu, -, hplain⟩ := render_head t
        exact ⟨u, rest, hu, hplain⟩
      obtain ⟨rfl, hrest⟩ := joined_inj rfl (by decide) hhead ih h
      exact ⟨rfl, hrest⟩
    | bool b => cases b <;> simp [kindOf] at hkind
    | _ => simp [kindOf] at hkind
  | object entries ih =>
    intro u r r' _ _ h
    have hkind := kindOf_eq h
    cases u with
    | object others =>
      simp only [render, renderEntries_eq, List.cons_append, List.append_assoc, List.nil_append,
        List.cons.injEq, true_and] at h
      obtain ⟨rfl, hrest⟩ := joined_inj rfl (by decide) renderEntry_head
        (fun e he => readable_entry (ih e he)) h
      exact ⟨rfl, hrest⟩
    | bool b => cases b <;> simp [kindOf] at hkind
    | _ => simp [kindOf] at hkind

theorem render_injective : Function.Injective render := by
  intro t u h
  have hclosed : Closed [] := by
    intro u hu
    cases hu
  have happend : render t ++ [] = render u ++ [] := by rw [h]
  exact (readable t u [] [] hclosed hclosed happend).1

end Json
