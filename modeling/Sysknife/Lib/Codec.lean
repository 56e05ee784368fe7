import Mathlib.Data.List.Basic

/-!
# Uniquely decodable encodings

`Delimited enc` says that a code word can be told from whatever follows it: two
concatenations agree only when both the encoded values and the rests agree.
`DelimitedBefore stop enc` is the same for rests that satisfy `stop`, which is
what an unterminated code word (a decimal number, say) can promise.
-/

namespace Codec

variable {α β γ : Type*}

/-- Unique decoding of `enc` in front of every rest that satisfies `stop`. -/
def DelimitedBefore (stop : List γ → Prop) (enc : α → List γ) : Prop :=
  ∀ a b s t, stop s → stop t → enc a ++ s = enc b ++ t → a = b ∧ s = t

/-- Unique decoding of `enc` in front of every rest. -/
def Delimited (enc : α → List γ) : Prop :=
  ∀ a b s t, enc a ++ s = enc b ++ t → a = b ∧ s = t

theorem Delimited.before {enc : α → List γ} (h : Delimited enc) (stop : List γ → Prop) :
    DelimitedBefore stop enc :=
  fun a b s t _ _ he => h a b s t he

/-- An injective renaming of the values keeps a code uniquely decodable. -/
theorem Delimited.comp {enc : β → List γ} (h : Delimited enc) {f : α → β}
    (hf : Function.Injective f) : Delimited fun a => enc (f a) := by
  intro a b s t he
  obtain ⟨hab, hst⟩ := h (f a) (f b) s t he
  exact ⟨hf hab, hst⟩

/-- A fixed header in front of a field. -/
theorem Delimited.header {enc : α → List γ} (h : Delimited enc) (tag : List γ) :
    Delimited fun a => tag ++ enc a := by
  intro a b s t he
  rw [List.append_assoc, List.append_assoc] at he
  exact h a b s t (List.append_cancel_left he)

/-- The first `q` of a text is where the text before it ends. -/
theorem split_at_first {q : γ} {x y s t : List γ} (hx : q ∉ x) (hy : q ∉ y)
    (he : x ++ q :: s = y ++ q :: t) : x = y ∧ s = t := by
  induction x generalizing y with
  | nil =>
    cases y with
    | nil => exact ⟨rfl, by simpa using he⟩
    | cons d y =>
      simp only [List.nil_append, List.cons_append, List.cons.injEq] at he
      exact absurd (he.1 ▸ List.mem_cons_self) hy
  | cons c x ih =>
    cases y with
    | nil =>
      simp only [List.nil_append, List.cons_append, List.cons.injEq] at he
      exact absurd (he.1 ▸ List.mem_cons_self) hx
    | cons d y =>
      simp only [List.cons_append, List.cons.injEq] at he
      obtain ⟨rfl, htail⟩ := he
      obtain ⟨rfl, hst⟩ := ih (fun hm => hx (List.mem_cons_of_mem _ hm))
        (fun hm => hy (List.mem_cons_of_mem _ hm)) htail
      exact ⟨rfl, hst⟩

/-- The last `q` of a text is where the text after it starts, however many the
first half has. -/
theorem split_at_last {q : γ} {x y u v : List γ} (hu : q ∉ u) (hv : q ∉ v)
    (he : x ++ q :: u = y ++ q :: v) : x = y ∧ u = v := by
  have hrev := congrArg List.reverse he
  simp only [List.reverse_append, List.reverse_cons, List.append_assoc,
    List.singleton_append] at hrev
  obtain ⟨huv, hxy⟩ := split_at_first (by simpa using hu) (by simpa using hv) hrev
  exact ⟨List.reverse_inj.mp hxy, List.reverse_inj.mp huv⟩

/-- A run of symbols of one class ends where a symbol of another class starts. -/
theorem split_at_span {p : γ → Prop} {x y s t : List γ} (hx : ∀ c ∈ x, p c)
    (hy : ∀ c ∈ y, p c) (hs : ∀ c ∈ s.head?, ¬ p c) (ht : ∀ c ∈ t.head?, ¬ p c)
    (he : x ++ s = y ++ t) : x = y ∧ s = t := by
  induction x generalizing y with
  | nil =>
    cases y with
    | nil => exact ⟨rfl, by simpa using he⟩
    | cons d y =>
      simp only [List.nil_append] at he
      exact absurd (hy d List.mem_cons_self) (hs d (by simp [he]))
  | cons c x ih =>
    cases y with
    | nil =>
      simp only [List.nil_append] at he
      exact absurd (hx c List.mem_cons_self) (ht c (by simp [← he]))
    | cons d y =>
      simp only [List.cons_append, List.cons.injEq] at he
      obtain ⟨rfl, htail⟩ := he
      obtain ⟨rfl, hst⟩ := ih (fun e hm => hx e (List.mem_cons_of_mem _ hm))
        (fun e hm => hy e (List.mem_cons_of_mem _ hm)) htail
      exact ⟨rfl, hst⟩

/-- An injective code over symbols of one class is read up to the first symbol
of another class. -/
theorem delimitedBefore_span {enc : α → List γ} (hinj : Function.Injective enc)
    {p : γ → Prop} (hp : ∀ a, ∀ c ∈ enc a, p c) :
    DelimitedBefore (fun s => ∀ c ∈ s.head?, ¬ p c) enc := by
  intro a b s t hs ht he
  obtain ⟨hab, hst⟩ := split_at_span (hp a) (hp b) hs ht he
  exact ⟨hinj hab, hst⟩

section Escape
variable {esc : α → List γ} {q : γ}

/-- A text escaped symbol by symbol and closed by `q`. No escape sequence is a
prefix of another, and none starts with `q`, so the closing `q` is found. -/
theorem delimited_escaped (hesc : Delimited esc) (hq : ∀ a s t, esc a ++ s ≠ q :: t) :
    Delimited fun text : List α => text.flatMap esc ++ [q] := by
  intro x
  induction x with
  | nil =>
    intro y s t he
    cases y with
    | nil => exact ⟨rfl, by simpa using he⟩
    | cons b y =>
      simp only [List.flatMap_nil, List.nil_append, List.flatMap_cons, List.append_assoc,
        List.singleton_append] at he
      exact absurd he.symm (hq b _ _)
  | cons a x ih =>
    intro y s t he
    cases y with
    | nil =>
      simp only [List.flatMap_nil, List.nil_append, List.flatMap_cons, List.append_assoc,
        List.singleton_append] at he
      exact absurd he (hq a _ _)
    | cons b y =>
      simp only [List.flatMap_cons, List.append_assoc] at he
      obtain ⟨rfl, htail⟩ := hesc a b _ _ he
      obtain ⟨rfl, hst⟩ := ih y s t (by simpa only [List.append_assoc] using htail)
      exact ⟨rfl, hst⟩

end Escape

section Joined
variable {enc : α → List γ} {sep close : γ}

/-- Code words joined by a separator. -/
def joinWith (sep : γ) : List (List γ) → List γ
  | [] => []
  | [w] => w
  | w :: v :: rest => w ++ sep :: joinWith sep (v :: rest)

/-- A closed list of joined code words is uniquely decodable when each listed
value is, in front of the separator and of the closing symbol. -/
theorem joinWith_unique {stop : List γ → Prop} (hsep : ∀ s, stop (sep :: s))
    (hclose : ∀ s, stop (close :: s)) (hne : sep ≠ close)
    (hopen : ∀ a s t, enc a ++ s ≠ close :: t) :
    ∀ xs : List α,
      (∀ a ∈ xs, ∀ b s t, stop s → stop t → enc a ++ s = enc b ++ t → a = b ∧ s = t) →
      ∀ ys s t, joinWith sep (xs.map enc) ++ close :: s = joinWith sep (ys.map enc) ++ close :: t →
        xs = ys ∧ s = t := by
  intro xs
  induction xs with
  | nil =>
    intro _ ys s t he
    match ys with
    | [] => exact ⟨rfl, by simpa [joinWith] using he⟩
    | [b] => exact absurd he.symm (hopen b _ _)
    | b :: d :: ys =>
      simp only [List.map_cons, joinWith, List.append_assoc] at he
      exact absurd he.symm (hopen b _ _)
  | cons a xs ih =>
    intro hx ys s t he
    have ha := hx a List.mem_cons_self
    have hrest : ∀ c ∈ xs, _ := fun c hc => hx c (List.mem_cons_of_mem _ hc)
    match xs, ys with
    | [], [] => exact absurd he (hopen a _ _)
    | c :: xs, [] =>
      simp only [List.map_cons, joinWith, List.append_assoc] at he
      exact absurd he (hopen a _ _)
    | [], [b] =>
      obtain ⟨rfl, htail⟩ := ha b _ _ (hclose s) (hclose t) he
      exact ⟨rfl, by simpa using htail⟩
    | [], b :: d :: ys =>
      simp only [List.map_cons, joinWith, List.append_assoc] at he
      obtain ⟨-, htail⟩ := ha b _ _ (hclose s) (hsep _) he
      exact absurd (List.cons.inj htail).1.symm hne
    | c :: xs, [b] =>
      simp only [List.map_cons, joinWith, List.append_assoc] at he
      obtain ⟨-, htail⟩ := ha b _ _ (hsep _) (hclose t) he
      exact absurd (List.cons.inj htail).1 hne
    | c :: xs, b :: d :: ys =>
      simp only [List.map_cons, joinWith, List.append_assoc] at he
      obtain ⟨rfl, htail⟩ := ha b _ _ (hsep _) (hsep _) he
      obtain ⟨htl, hst⟩ := ih hrest (d :: ys) s t (List.cons.inj htail).2
      exact ⟨by rw [htl], hst⟩

end Joined

end Codec
