import Mathlib.Logic.Function.Basic
import BackupFleet.Json

/-!
# `BackupFleet.Proofs.Json` — a report is told by its text

A report is written over many lines, and only the text reaches a reader. Nothing is lost on the way: two
reports with the same text are the same. A value can be split off the front of a longer text, so the texts of
the parts stand one after the other without a doubt where one of them ends. Only a count needs to know that no
further digit follows (`Ends`); what follows a value in a report is a comma or a line feed.

## Contents

* `Ends`, `Tells` — texts that can be split off;
* `decimal_append_inj`, `escape_append_inj`, `quote_append_inj` — counts and texts;
* `bracketed_append_inj` — lists of values;
* `tells_renderAt`, `render_injective` — reports.
-/

namespace BackupFleet.Json

/-! ## Texts that can be split off -/

/-- No digit follows. -/
def Ends (rest : List Char) : Prop := ∀ c, rest.head? = some c → c.isDigit = false

/-- The text of a value tells the value and where it ends, if no digit follows. -/
def Tells {α : Type} (text : α → List Char) (x : α) : Prop :=
  ∀ y rest rest', Ends rest → Ends rest' → text x ++ rest = text y ++ rest' → x = y ∧ rest = rest'

theorem ends_nil : Ends [] := fun _ h => absurd h (by simp)

theorem ends_cons {c : Char} (h : c.isDigit = false) (rest : List Char) : Ends (c :: rest) := by
  rintro _ ⟨⟩
  exact h

/-! ## Counts -/

theorem takeWhile_decimal (n : Nat) {rest : List Char} (h : Ends rest) :
    (Text.decimal n ++ rest).takeWhile Char.isDigit = Text.decimal n := by
  rw [List.takeWhile_append_of_pos fun c hc => Text.isDigit_of_mem_decimal hc]
  cases rest with
  | nil => simp
  | cons c r => rw [List.takeWhile_cons_of_neg (by simp [h c rfl]), List.append_nil]

/-- Counts end where no further digit follows. -/
theorem decimal_append_inj {m n : Nat} {rest rest' : List Char} (h : Ends rest) (h' : Ends rest')
    (he : Text.decimal m ++ rest = Text.decimal n ++ rest') : m = n ∧ rest = rest' := by
  have hdigits : Text.decimal m = Text.decimal n := by
    rw [← takeWhile_decimal m h, he, takeWhile_decimal n h']
  rw [hdigits] at he
  have hread := congrArg Text.readDigits hdigits
  rw [Text.readDigits_decimal, Text.readDigits_decimal] at hread
  exact ⟨Option.some.inj hread, List.append_cancel_left he⟩

/-! ## Texts -/

/-- The characters that are written by a letter, with the letters. -/
def letters : List (Char × Char) :=
  [('"', '"'), ('\\', '\\'), ('\x08', 'b'), ('\x0c', 'f'), ('\n', 'n'), ('\r', 'r'), ('\t', 't')]

/-- A character is written by a letter, by its number, or as it is. -/
theorem escape_cases (c : Char) :
    (∃ l, (c, l) ∈ letters ∧ escape c = ['\\', l]) ∨
    (c.toNat < 32 ∧ escape c = ['\\', 'u', '0', '0', hexDigit (c.toNat / 16), hexDigit c.toNat]) ∨
    (c ≠ '"' ∧ c ≠ '\\' ∧ escape c = [c]) := by
  unfold escape
  split
  · exact .inl ⟨'"', by decide, rfl⟩
  · exact .inl ⟨'\\', by decide, rfl⟩
  · exact .inl ⟨'b', by decide, rfl⟩
  · exact .inl ⟨'f', by decide, rfl⟩
  · exact .inl ⟨'n', by decide, rfl⟩
  · exact .inl ⟨'r', by decide, rfl⟩
  · exact .inl ⟨'t', by decide, rfl⟩
  · rename_i hquote hbackslash _ _ _ _ _
    split
    · rename_i hcontrol
      exact .inr (.inl ⟨hcontrol, rfl⟩)
    · exact .inr (.inr ⟨hquote, hbackslash, rfl⟩)

/-- A letter stands for one character. -/
theorem letters_inj : ∀ a ∈ letters, ∀ b ∈ letters, a.2 = b.2 → a = b := by decide

theorem letter_ne_u : ∀ a ∈ letters, a.2 ≠ 'u' := by decide

theorem hexDigit_inj : ∀ m < 16, ∀ n < 16, hexDigit m = hexDigit n → m = n := by decide

/-- The two digits of a small number tell it. -/
theorem toNat_eq_of_hexDigit {c d : Char} (hc : c.toNat < 32) (hd : d.toNat < 32)
    (hhigh : hexDigit (c.toNat / 16) = hexDigit (d.toNat / 16)) (hlow : hexDigit c.toNat = hexDigit d.toNat) :
    c = d := by
  have hquotient := hexDigit_inj _ (by omega) _ (by omega) hhigh
  have hmod : ∀ n, hexDigit n = hexDigit (n % 16) := fun n => by rw [hexDigit, hexDigit, Nat.mod_mod]
  rw [hmod c.toNat, hmod d.toNat] at hlow
  have hremainder := hexDigit_inj _ (Nat.mod_lt _ (by decide)) _ (Nat.mod_lt _ (by decide)) hlow
  exact Char.toNat_inj.1 (by omega)

/-- A character inside quotes tells where it ends. -/
theorem escape_append_inj {c d : Char} {rest rest' : List Char} (h : escape c ++ rest = escape d ++ rest') :
    c = d ∧ rest = rest' := by
  rcases escape_cases c with ⟨l, hl, hc⟩ | ⟨hcontrol, hc⟩ | ⟨hquote, hbackslash, hc⟩ <;>
    rcases escape_cases d with ⟨l', hl', hd⟩ | ⟨hcontrol', hd⟩ | ⟨hquote', hbackslash', hd⟩ <;>
    rw [hc, hd] at h <;> simp only [List.cons_append, List.nil_append, List.cons.injEq, true_and] at h
  · exact ⟨congrArg Prod.fst (letters_inj _ hl _ hl' h.1), h.2⟩
  · exact absurd h.1 (letter_ne_u _ hl)
  · exact absurd h.1.symm hbackslash'
  · exact absurd h.1.symm (letter_ne_u _ hl')
  · exact ⟨toNat_eq_of_hexDigit hcontrol hcontrol' h.1 h.2.1, h.2.2⟩
  · exact absurd h.1.symm hbackslash'
  · exact absurd h.1 hbackslash
  · exact absurd h.1 hbackslash
  · exact h

/-- No character inside quotes is taken for the closing quote. -/
theorem escape_append_ne {c : Char} {rest rest' : List Char} : escape c ++ rest ≠ '"' :: rest' := by
  intro h
  rcases escape_cases c with ⟨l, -, hc⟩ | ⟨-, hc⟩ | ⟨hquote, -, hc⟩ <;> rw [hc] at h
  · cases h
  · cases h
  · exact hquote (List.cons.inj h).1

theorem flatMap_escape_append_inj {l l' rest rest' : List Char}
    (h : l.flatMap escape ++ '"' :: rest = l'.flatMap escape ++ '"' :: rest') : l = l' ∧ rest = rest' := by
  induction l generalizing l' with
  | nil =>
    cases l' with
    | nil => exact ⟨rfl, List.append_cancel_left h |> List.cons.inj |>.2⟩
    | cons d r' =>
      rw [List.flatMap_cons, List.append_assoc] at h
      exact absurd h.symm escape_append_ne
  | cons c r ih =>
    cases l' with
    | nil =>
      rw [List.flatMap_cons, List.append_assoc] at h
      exact absurd h escape_append_ne
    | cons d r' =>
      rw [List.flatMap_cons, List.flatMap_cons, List.append_assoc, List.append_assoc] at h
      obtain ⟨rfl, hnext⟩ := escape_append_inj h
      obtain ⟨rfl, hrest⟩ := ih hnext
      exact ⟨rfl, hrest⟩

/-- **A text between quotes tells where it ends**, whatever follows. -/
theorem quote_append_inj {s s' : String} {rest rest' : List Char} (h : quote s ++ rest = quote s' ++ rest') :
    s = s' ∧ rest = rest' := by
  simp only [quote, List.cons_append, List.append_assoc, List.nil_append, List.cons.injEq, true_and] at h
  obtain ⟨hs, hrest⟩ := flatMap_escape_append_inj h
  exact ⟨String.toList_inj.1 hs, hrest⟩

/-! ## Several values -/

section Several

variable {α : Type} {text : α → List Char}

/-- What is between brackets after the first value: a comma and the next one, or the end of the line. -/
def following (closing : Char) (depth : Nat) (items : List (List Char)) : List Char :=
  items.flatMap (fun item => ',' :: newline (depth + 1) ++ item) ++ newline depth ++ [closing]

theorem intersperse_flatten (sep first : List Char) (items : List (List Char)) :
    ((first :: items).intersperse sep).flatten = first ++ items.flatMap (sep ++ ·) := by
  induction items generalizing first with
  | nil => simp
  | cons item r ih => simp [ih]

theorem bracketed_cons (opening closing : Char) (depth : Nat) (first : List Char) (items : List (List Char)) :
    bracketed opening closing depth (first :: items)
      = opening :: (newline (depth + 1) ++ (first ++ following closing depth items)) := by
  show opening :: (newline (depth + 1) ++ ((first :: items).intersperse (',' :: newline (depth + 1))).flatten) ++
    newline depth ++ [closing] = _
  rw [intersperse_flatten]
  simp [following]

/-- A value is followed by a comma or by the end of its line. -/
theorem ends_following (closing : Char) (depth : Nat) (items : List (List Char)) (rest : List Char) :
    Ends (following closing depth items ++ rest) := by
  cases items with
  | nil => exact ends_cons (by decide) _
  | cons item r => exact ends_cons (by decide) _

theorem following_append_inj {closing : Char} {depth : Nat} {l l' : List α} {rest rest' : List Char}
    (htells : ∀ x ∈ l, Tells text x)
    (h : following closing depth (l.map text) ++ rest = following closing depth (l'.map text) ++ rest') :
    l = l' ∧ rest = rest' := by
  have hcons : ∀ (item : List Char) (r : List (List Char)) (rest : List Char),
      following closing depth (item :: r) ++ rest
        = ',' :: newline (depth + 1) ++ (item ++ (following closing depth r ++ rest)) := by
    intro item r rest
    simp [following]
  induction l generalizing l' with
  | nil =>
    cases l' with
    | nil => exact ⟨rfl, List.append_cancel_left h⟩
    | cons y r' =>
      rw [List.map_cons, hcons] at h
      exact absurd (List.cons.inj h).1 (by decide)
  | cons x r ih =>
    cases l' with
    | nil =>
      rw [List.map_cons, hcons] at h
      exact absurd (List.cons.inj h).1 (by decide)
    | cons y r' =>
      obtain ⟨hx, hr⟩ := List.forall_mem_cons.1 htells
      rw [List.map_cons, List.map_cons, hcons, hcons] at h
      obtain ⟨rfl, hnext⟩ := hx _ _ _ (ends_following _ _ _ _) (ends_following _ _ _ _)
        (List.append_cancel_left h)
      obtain ⟨rfl, hrest⟩ := ih hr hnext
      exact ⟨rfl, hrest⟩

/-- **Values between brackets tell where each of them ends**, if each does. -/
theorem bracketed_append_inj {opening closing : Char} (hclosing : closing ≠ '\n') {depth : Nat} {l l' : List α}
    {rest rest' : List Char} (htells : ∀ x ∈ l, Tells text x)
    (h : bracketed opening closing depth (l.map text) ++ rest
      = bracketed opening closing depth (l'.map text) ++ rest') : l = l' ∧ rest = rest' := by
  cases l with
  | nil =>
    cases l' with
    | nil => exact ⟨rfl, List.append_cancel_left h⟩
    | cons y r' =>
      rw [List.map_cons, bracketed_cons] at h
      exact absurd (List.cons.inj (List.cons.inj h).2).1 hclosing
  | cons x r =>
    cases l' with
    | nil =>
      rw [List.map_cons, bracketed_cons] at h
      exact absurd (List.cons.inj (List.cons.inj h).2).1.symm hclosing
    | cons y r' =>
      obtain ⟨hx, hr⟩ := List.forall_mem_cons.1 htells
      rw [List.map_cons, List.map_cons, bracketed_cons, bracketed_cons, List.cons_append, List.cons_append,
        List.append_assoc, List.append_assoc, List.append_assoc, List.append_assoc] at h
      obtain ⟨rfl, hnext⟩ := hx _ _ _ (ends_following _ _ _ _) (ends_following _ _ _ _)
        (List.append_cancel_left (List.cons.inj h).2)
      obtain ⟨rfl, hrest⟩ := following_append_inj hr hnext
      exact ⟨rfl, hrest⟩

end Several

/-! ## Reports -/

/-- The character that the text of a value starts with, unless it is a count. -/
def initial : Json → Option Char
  | null => some 'n'
  | bool b => some (if b then 't' else 'f')
  | count _ => none
  | text _ => some '"'
  | list _ => some '['
  | object _ => some '\x7b'

/-- The kind of a value is seen at the start of its text. -/
theorem initial_eq (depth : Nat) (j : Json) (rest : List Char) :
    j.initial = (renderAt depth j ++ rest).head?.filter fun c => !c.isDigit := by
  have hbracketed : ∀ (opening closing : Char) (items : List (List Char)),
      (bracketed opening closing depth items ++ rest).head? = some opening := by
    intro opening closing items
    cases items <;> simp [bracketed]
  cases j with
  | null => rfl
  | bool b => cases b <;> rfl
  | count n =>
    obtain ⟨c, r, hdecimal⟩ := List.exists_cons_of_ne_nil (Text.decimal_ne_nil n)
    have hdigit : c.isDigit = true := Text.isDigit_of_mem_decimal (n := n) (by rw [hdecimal]; simp)
    rw [renderAt, hdecimal]
    simp [initial, Option.filter, hdigit]
  | text s => rfl
  | list items =>
    rw [renderAt, hbracketed]
    rfl
  | object fields =>
    rw [renderAt, hbracketed]
    rfl

theorem renderItems_eq (depth : Nat) (items : List Json) : renderItems depth items = items.map (renderAt depth) := by
  induction items with
  | nil => rfl
  | cons j r ih => rw [renderItems, ih, List.map_cons]

/-- The text of a field. -/
def fieldAt (depth : Nat) (e : String × Json) : List Char := quote e.1 ++ ':' :: ' ' :: renderAt depth e.2

theorem renderFields_eq (depth : Nat) (fields : List (String × Json)) :
    renderFields depth fields = fields.map (fieldAt depth) := by
  induction fields with
  | nil => rfl
  | cons e r ih => rw [renderFields, ih, List.map_cons, fieldAt]

/-- A field tells its name and its value, if its value does. -/
theorem tells_fieldAt {depth : Nat} {e : String × Json} (h : Tells (renderAt depth) e.2) :
    Tells (fieldAt depth) e := by
  intro y rest rest' hends hends' he
  simp only [fieldAt, List.append_assoc, List.cons_append] at he
  obtain ⟨hname, he⟩ := quote_append_inj he
  simp only [List.cons.injEq, true_and] at he
  obtain ⟨hvalue, hrest⟩ := h _ _ _ hends hends' he
  exact ⟨Prod.ext hname hvalue, hrest⟩

mutual

/-- **The text of a value tells the value**, at every depth. -/
theorem tells_renderAt (j : Json) (depth : Nat) : Tells (renderAt depth) j := by
  intro y rest rest' hends hends' he
  have hinitial : j.initial = y.initial := by rw [initial_eq depth j rest, he, ← initial_eq]
  match j with
  | .null =>
    cases y with
    | null => exact ⟨rfl, List.append_cancel_left he⟩
    | bool b => cases b <;> cases hinitial
    | _ => cases hinitial
  | .bool b =>
    cases y with
    | bool b' =>
      obtain rfl : b = b' := by cases b <;> cases b' <;> first | rfl | cases hinitial
      exact ⟨rfl, List.append_cancel_left he⟩
    | _ => cases b <;> cases hinitial
  | .count n =>
    cases y with
    | count n' =>
      obtain ⟨rfl, hrest⟩ := decimal_append_inj hends hends' he
      exact ⟨rfl, hrest⟩
    | _ => cases hinitial
  | .text s =>
    cases y with
    | text s' =>
      obtain ⟨rfl, hrest⟩ := quote_append_inj he
      exact ⟨rfl, hrest⟩
    | bool b => cases b <;> cases hinitial
    | _ => cases hinitial
  | .list items =>
    cases y with
    | list items' =>
      rw [renderAt, renderAt, renderItems_eq, renderItems_eq] at he
      obtain ⟨rfl, hrest⟩ := bracketed_append_inj (by decide) (fun x hx => tells_items items x hx _) he
      exact ⟨rfl, hrest⟩
    | bool b => cases b <;> cases hinitial
    | _ => cases hinitial
  | .object fields =>
    cases y with
    | object fields' =>
      rw [renderAt, renderAt, renderFields_eq, renderFields_eq] at he
      obtain ⟨rfl, hrest⟩ := bracketed_append_inj (by decide)
        (fun e he => tells_fieldAt (tells_fields fields e he _)) he
      exact ⟨rfl, hrest⟩
    | bool b => cases b <;> cases hinitial
    | _ => cases hinitial

theorem tells_items (items : List Json) : ∀ x ∈ items, ∀ depth, Tells (renderAt depth) x := by
  match items with
  | [] => exact fun x hx => absurd hx List.not_mem_nil
  | j :: r =>
    intro x hx depth
    rcases List.mem_cons.1 hx with hx | hx
    · rw [hx]
      exact tells_renderAt j depth
    · exact tells_items r x hx depth

theorem tells_fields (fields : List (String × Json)) : ∀ e ∈ fields, ∀ depth, Tells (renderAt depth) e.2 := by
  match fields with
  | [] => exact fun e he => absurd he List.not_mem_nil
  | (k, j) :: r =>
    intro e he depth
    rcases List.mem_cons.1 he with he | he
    · rw [he]
      exact tells_renderAt j depth
    · exact tells_fields r e he depth

end

/-- **A report is told by its text.** -/
theorem render_injective : Function.Injective render := by
  intro j j' h
  have htext : renderAt 0 j ++ [] = renderAt 0 j' ++ [] := by
    rw [List.append_nil, List.append_nil]
    exact String.ofList_injective h
  exact (tells_renderAt j 0 j' [] [] ends_nil ends_nil htext).1

end BackupFleet.Json
