import Mathlib.Data.List.TakeWhile
import Mathlib.Data.List.Nodup

/-! Text made of parts that a separator character joins, and objects written as separated
`key=value` pairs. Splitting inverts joining as long as no part contains the separator. -/
namespace SeparatedText

/-! ## Parts -/

def split (text : String) (sep : Char) : List String :=
  (text.toList.splitOn sep).map String.ofList

def join (parts : List String) (sep : Char) : String :=
  String.ofList ([sep].intercalate (parts.map String.toList))

def Lacks (sep : Char) (text : String) : Prop := sep ∉ text.toList

instance (sep : Char) (text : String) : Decidable (Lacks sep text) :=
  inferInstanceAs (Decidable (sep ∉ text.toList))

section Parts
variable {sep : Char} {text : String} {parts : List String}

theorem lacks_append {a b : String} : Lacks sep (a ++ b) ↔ Lacks sep a ∧ Lacks sep b := by
  simp [Lacks]

theorem toString_lacks (n : Nat) {c : Char} (hc : c.isDigit = false) : Lacks c (toString n) := by
  intro hmem
  have hdigit := Nat.isDigit_of_mem_toDigits (b := 10) (by decide) (by decide) (c := c) (n := n)
  rw [hdigit (by simpa [Nat.repr] using hmem)] at hc
  cases hc

theorem split_ne_nil (text : String) (sep : Char) : split text sep ≠ [] := by
  simp [split, List.splitOn_ne_nil]

theorem split_join (hparts : parts ≠ []) (h : ∀ p ∈ parts, Lacks sep p) :
    split (join parts sep) sep = parts := by
  rw [split, join, String.toList_ofList, List.splitOn_intercalate]
  · simp
  · intro l hl
    obtain ⟨p, hp, rfl⟩ := List.mem_map.mp hl
    exact h p hp
  · simpa using hparts

theorem join_split (text : String) (sep : Char) : join (split text sep) sep = text := by
  rw [join, split, List.map_map]
  have hid : String.toList ∘ String.ofList = id := by
    funext l
    simp
  rw [hid, List.map_id, List.intercalate_splitOn, String.ofList_toList]

@[simp] theorem join_nil (sep : Char) : join [] sep = "" := rfl

@[simp] theorem join_singleton (text : String) (sep : Char) : join [text] sep = text := by
  simp [join]

theorem split_of_lacks (h : Lacks sep text) : split text sep = [text] := by
  have hsplit := split_join (List.cons_ne_nil text []) (by simpa using h)
  rwa [join_singleton] at hsplit

theorem join_cons (text : String) (hparts : parts ≠ []) :
    join (text :: parts) sep = text ++ String.ofList [sep] ++ join parts sep := by
  obtain ⟨p, ps, rfl⟩ := List.exists_cons_of_ne_nil hparts
  apply String.toList_inj.mp
  simp [join, List.intercalate]

theorem join_concat (hparts : parts ≠ []) (text : String) :
    join (parts ++ [text]) sep = join parts sep ++ String.ofList [sep] ++ text := by
  induction parts with
  | nil => exact absurd rfl hparts
  | cons p parts ih =>
    by_cases hrest : parts = []
    · subst hrest
      rw [List.cons_append, List.nil_append, join_cons p (by simp), join_singleton, join_singleton]
    · rw [List.cons_append, join_cons p (by simp), ih hrest, join_cons p hrest]
      simp only [String.append_assoc]

theorem split_of_cut (h : Lacks sep text) (rest : String) :
    split (text ++ String.ofList [sep] ++ rest) sep = text :: split rest sep := by
  simp only [split, String.toList_append, String.toList_ofList, List.append_assoc,
    List.singleton_append]
  rw [List.splitOn_append_cons_self_of_not_mem h]
  simp

theorem mem_splitOn {chars part : List Char} (h : part ∈ chars.splitOn sep) :
    sep ∉ part ∧ ∀ c ∈ part, c ∈ chars := by
  induction chars generalizing part with
  | nil =>
    rw [List.splitOn_nil, List.mem_singleton] at h
    simp [h]
  | cons x chars ih =>
    obtain ⟨head, tail, hsplit⟩ := List.exists_cons_of_ne_nil (List.splitOn_ne_nil sep chars)
    have hrest : ∀ p ∈ head :: tail, sep ∉ p ∧ ∀ c ∈ p, c ∈ x :: chars := by
      intro p hp
      obtain ⟨hsep, hmem⟩ := ih (hsplit ▸ hp)
      exact ⟨hsep, fun c hc => List.mem_cons_of_mem _ (hmem c hc)⟩
    rw [List.splitOn_cons_eq_if_modifyHead, hsplit] at h
    by_cases hx : x = sep
    · rw [if_pos (by simpa using hx)] at h
      cases List.mem_cons.mp h with
      | inl heq => simp [heq]
      | inr hmem => exact hrest part hmem
    · rw [if_neg (by simpa using hx), List.modifyHead_cons] at h
      cases List.mem_cons.mp h with
      | inl heq =>
        obtain ⟨hsep, hmem⟩ := hrest head List.mem_cons_self
        subst heq
        refine ⟨by simp [hsep, Ne.symm hx], fun c hc => ?_⟩
        cases List.mem_cons.mp hc with
        | inl heq => simp [heq]
        | inr hc => exact hmem c hc
      | inr hmem => exact hrest part (List.mem_cons_of_mem _ hmem)

/-- A part lacks the separator and whatever the whole text lacks. -/
theorem lacks_of_mem_split {part : String} (h : part ∈ split text sep) :
    Lacks sep part ∧ ∀ c, Lacks c text → Lacks c part := by
  obtain ⟨chars, hchars, rfl⟩ := List.mem_map.mp h
  obtain ⟨hsep, hmem⟩ := mem_splitOn hchars
  exact ⟨by simpa [Lacks] using hsep, fun c hc hin => hc (hmem c (by simpa using hin))⟩

/-- A text that contains the separator has at least two parts. -/
theorem two_le_length_split (h : ¬ Lacks sep text) : 2 ≤ (split text sep).length := by
  have hne := split_ne_nil text sep
  by_contra hlt
  obtain ⟨p, hp⟩ : ∃ p, split text sep = [p] := by
    match hs : split text sep with
    | [] => exact absurd hs hne
    | [p] => exact ⟨p, rfl⟩
    | _ :: _ :: _ => simp [hs] at hlt
  have hself := join_split text sep
  rw [hp, join_singleton] at hself
  subst hself
  obtain ⟨a, b, hab⟩ := List.append_of_mem (not_not.mp h)
  have hcut := congrArg (fun s : List String => s.length) hp
  simp only [split, hab, List.length_map, List.splitOn_append_cons_self] at hcut
  have hlen := List.length_pos_iff.mpr (List.splitOn_ne_nil sep a)
  have hlen' := List.length_pos_iff.mpr (List.splitOn_ne_nil sep b)
  simp only [List.length_append, List.length_singleton] at hcut
  omega

end Parts

/-! ## Associations -/

abbrev Assoc (α : Type) := List (String × α)

namespace Assoc
variable {α : Type}

def get (o : Assoc α) (key : String) : Option α := (o.find? fun p => p.1 = key).map Prod.snd

/-- A property that exists keeps its place. -/
def set (o : Assoc α) (key : String) (value : α) : Assoc α :=
  if key ∈ o.map Prod.fst then o.map fun p => if p.1 = key then (key, value) else p
  else o ++ [(key, value)]

theorem get_cons (p : String × α) (o : Assoc α) (key : String) :
    get (p :: o) key = if p.1 = key then some p.2 else get o key := by
  unfold get
  by_cases h : p.1 = key <;> simp [h]

theorem get_eq_none {o : Assoc α} {key : String} (h : key ∉ o.map Prod.fst) : get o key = none := by
  simp only [get, Option.map_eq_none_iff, List.find?_eq_none, decide_eq_true_eq]
  intro p hp heq
  exact h (List.mem_map.mpr ⟨p, hp, heq⟩)

theorem get_append {o o' : Assoc α} {key : String} (h : key ∉ o.map Prod.fst) :
    get (o ++ o') key = get o' key := by
  simp only [get, List.find?_append]
  have hnone : o.find? (fun p => decide (p.1 = key)) = none := by
    have := get_eq_none h
    simpa [get] using this
  simp [hnone]

theorem set_of_fresh {o : Assoc α} {key : String} (h : key ∉ o.map Prod.fst) (value : α) :
    set o key value = o ++ [(key, value)] := if_neg h

theorem mem_set {o : Assoc α} {key : String} {value : α} {p : String × α}
    (hp : p ∈ set o key value) : p ∈ o ∨ p = (key, value) := by
  unfold set at hp
  split at hp
  · obtain ⟨q, hq, rfl⟩ := List.mem_map.mp hp
    by_cases h : q.1 = key
    · exact Or.inr (if_pos h)
    · rw [if_neg h]
      exact Or.inl hq
  · exact (List.mem_append.mp hp).imp id List.mem_singleton.mp

theorem nodup_set {o : Assoc α} (h : (o.map Prod.fst).Nodup) (key : String) (value : α) :
    ((set o key value).map Prod.fst).Nodup := by
  unfold set
  split
  · have hkeys : (o.map fun p => if p.1 = key then (key, value) else p).map Prod.fst =
        o.map Prod.fst := by
      rw [List.map_map]
      refine List.map_congr_left fun p _ => ?_
      by_cases hp : p.1 = key
      · simp [hp]
      · simp [hp]
    rwa [hkeys]
  · next hfresh =>
    rw [List.map_append, List.nodup_append]
    refine ⟨h, by simp, ?_⟩
    rintro a ha b hb rfl
    simp only [List.map_cons, List.map_nil, List.mem_singleton] at hb
    exact hfresh (hb ▸ ha)

theorem get_set_self (o : Assoc α) (key : String) (value : α) : get (set o key value) key = some value := by
  by_cases h : key ∈ o.map Prod.fst
  · rw [set, if_pos h]
    induction o with
    | nil => cases h
    | cons q o ih =>
      rw [List.map_cons, get_cons]
      by_cases hq : q.1 = key
      · simp [hq]
      · rw [if_neg hq, if_neg hq]
        apply ih
        exact (List.mem_cons.mp h).resolve_left (Ne.symm hq)
  · rw [set_of_fresh h, get_append h, get_cons]
    simp

theorem get_set_of_ne (o : Assoc α) {key other : String} (value : α) (hne : other ≠ key) :
    get (set o key value) other = get o other := by
  by_cases h : key ∈ o.map Prod.fst
  · rw [set, if_pos h]
    clear h
    induction o with
    | nil => rfl
    | cons q o ih =>
      rw [List.map_cons, get_cons, get_cons, ih]
      by_cases hq : q.1 = key
      · rw [if_pos hq, if_neg hne.symm, if_neg (hq ▸ hne.symm)]
      · rw [if_neg hq]
  · rw [set_of_fresh h]
    by_cases hmem : other ∈ o.map Prod.fst
    · clear h
      induction o with
      | nil => cases hmem
      | cons q o ih =>
        rw [List.cons_append, get_cons, get_cons]
        by_cases hq : q.1 = other
        · rw [if_pos hq, if_pos hq]
        · rw [if_neg hq, if_neg hq]
          exact ih ((List.mem_cons.mp hmem).resolve_left (Ne.symm hq))
    · rw [get_append hmem, get_eq_none hmem, get_cons, if_neg hne.symm]
      rfl

theorem mem_of_get {o : Assoc α} {key : String} {value : α} (h : get o key = some value) :
    (key, value) ∈ o := by
  obtain ⟨p, hp, rfl⟩ := Option.map_eq_some_iff.mp h
  have hkey : p.1 = key := by simpa using List.find?_some hp
  exact hkey ▸ List.mem_of_find?_eq_some hp

theorem get_append_or (o o' : Assoc α) (key : String) :
    get (o ++ o') key = (get o key).or (get o' key) := by
  simp only [get, List.find?_append]
  cases o.find? fun p => decide (p.1 = key) <;> rfl

def setAll (o : Assoc α) (properties : List (String × α)) : Assoc α :=
  properties.foldl (fun o p => set o p.1 p.2) o

theorem setAll_of_fresh {o : Assoc α} {properties : List (String × α)}
    (hnodup : (o.map Prod.fst ++ properties.map Prod.fst).Nodup) :
    setAll o properties = o ++ properties := by
  induction properties generalizing o with
  | nil => simp [setAll]
  | cons p properties ih =>
    have hfresh : p.1 ∉ o.map Prod.fst := by
      intro hmem
      exact (List.nodup_append.mp hnodup).2.2 _ hmem _ (by simp) rfl
    have hstep : setAll o (p :: properties) = setAll (o ++ [p]) properties := by
      rw [setAll, List.foldl_cons, set_of_fresh hfresh]
      rfl
    rw [hstep, ih]
    · simp
    · simpa using hnodup

theorem mem_setAll {o : Assoc α} {properties : List (String × α)} {p : String × α}
    (h : p ∈ setAll o properties) : p ∈ o ∨ p ∈ properties := by
  induction properties generalizing o with
  | nil => exact Or.inl h
  | cons q properties ih =>
    cases ih h with
    | inl hp =>
      cases mem_set hp with
      | inl hp => exact Or.inl hp
      | inr heq => exact Or.inr (heq ▸ List.mem_cons_self)
    | inr hp => exact Or.inr (List.mem_cons_of_mem _ hp)

theorem get_setAll_of_not_mem {o : Assoc α} {properties : List (String × α)} {key : String}
    (h : key ∉ properties.map Prod.fst) : get (setAll o properties) key = get o key := by
  induction properties generalizing o with
  | nil => rfl
  | cons q properties ih =>
    rw [List.map_cons, List.mem_cons, not_or] at h
    exact (ih h.2).trans (get_set_of_ne o q.2 h.1)

/-- A property that was set reads one of the values it was set to. -/
theorem get_setAll {o : Assoc α} {properties : List (String × α)} {key : String}
    (h : key ∈ properties.map Prod.fst) :
    ∃ value, (key, value) ∈ properties ∧ get (setAll o properties) key = some value := by
  induction properties generalizing o with
  | nil => cases h
  | cons q properties ih =>
    by_cases hlater : key ∈ properties.map Prod.fst
    · obtain ⟨value, hmem, hget⟩ := ih (o := set o q.1 q.2) hlater
      exact ⟨value, List.mem_cons_of_mem _ hmem, hget⟩
    · have heq : key = q.1 := (List.mem_cons.mp h).resolve_right hlater
      subst heq
      refine ⟨q.2, List.mem_cons_self, ?_⟩
      exact (get_setAll_of_not_mem hlater).trans (get_set_self o q.1 q.2)

/-- One of several objects whose properties bear different names. -/
theorem get_flatMap {β : Type} [DecidableEq β] {name : β → String} {f : β → Assoc α}
    (hname : Function.Injective name) (hkey : ∀ b, ∀ p ∈ f b, p.1 = name b) (l : List β) (b : β) :
    get (l.flatMap f) (name b) = if b ∈ l then get (f b) (name b) else none := by
  induction l with
  | nil => rfl
  | cons c l ih =>
    rw [List.flatMap_cons, get_append_or, ih]
    by_cases hc : b = c
    · subst hc
      by_cases hb : b ∈ l
      · simp [hb]
      · simp [hb]
    · have hnone : get (f c) (name b) = none := by
        refine get_eq_none fun hmem => ?_
        obtain ⟨p, hp, heq⟩ := List.mem_map.mp hmem
        exact hc (hname (heq.symm.trans (hkey c p hp)))
      simp [hnone, hc]

end Assoc

/-! ## Pairs -/

def writePair (pair : String × String) : String := pair.1 ++ "=" ++ pair.2

/-- Split on the first `=` only; a pair without one has no value. -/
def readPair (pair : String) : String × Option String :=
  let key := pair.toList.takeWhile (· ≠ '=')
  match pair.toList.dropWhile (· ≠ '=') with
  | [] => (pair, none)
  | _ :: value => (String.ofList key, some (String.ofList value))

theorem readPair_writePair {pair : String × String} (h : Lacks '=' pair.1) :
    readPair (writePair pair) = (pair.1, some pair.2) := by
  have hall : ∀ c ∈ pair.1.toList, decide (c ≠ '=') = true := by
    intro c hc
    rw [decide_eq_true_eq]
    rintro rfl
    exact h hc
  have htext : (writePair pair).toList = pair.1.toList ++ '=' :: pair.2.toList := by
    simp [writePair]
  simp only [readPair, htext]
  rw [List.takeWhile_append_of_pos hall, List.dropWhile_append_of_pos hall]
  simp

/-- A key that was read contains no `=`. -/
theorem lacks_readPair (pair : String) : Lacks '=' (readPair pair).1 := by
  unfold readPair
  dsimp only
  split
  · next hnil =>
    rw [List.dropWhile_eq_nil_iff] at hnil
    intro hmem
    simpa using hnil '=' hmem
  · intro hmem
    rw [String.toList_ofList] at hmem
    simpa using List.mem_takeWhile_imp hmem

end SeparatedText
