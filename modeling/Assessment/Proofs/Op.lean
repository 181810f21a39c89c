import Assessment.Op
import Mathlib.Tactic.Common

/-!
# Laws of operations

Operations are opened by their two chains: one operation after another (`bind`) and one operation
for each member of a list (`forEach`).  What every operation of a chain keeps, the chain keeps,
whether it succeeds or fails (`bind_keeps`, `forEach_keeps`), and so it is for what is kept between two
states (`forEach_relates`); a loop whose every round succeeds and keeps an invariant succeeds
(`forEach_succeeds`); one that fails has done the rounds before the one that failed (`forEach_stops`).
-/

namespace Assessment
namespace Op

variable {ε σ α β : Type}

/-- The state after a chain of two is the state after the first or after the second. -/
lemma bind_keeps {P : σ → Prop} {x : Op ε σ α} {f : α → Op ε σ β} {s : σ}
    (hx : P (x s).state) (hf : ∀ a, P (x s).state → P (f a (x s).state).state) :
    P (Op.bind x f s).state := by
  cases h : (x s).result with
  | error e => rw [bind_of_error h]; exact hx
  | ok a => rw [bind_of_ok h]; exact hf a hx

lemma bind_assoc {γ : Type} (x : Op ε σ α) (f : α → Op ε σ β) (g : β → Op ε σ γ) :
    Op.bind (Op.bind x f) g = Op.bind x fun a => Op.bind (f a) g := by
  funext s
  cases hx : (x s).result with
  | error e => simp only [Op.bind, hx]
  | ok a => cases hf : (f a (x s).state).result <;> simp [Op.bind, hx, hf, List.append_assoc]

@[simp] lemma forEach_nil (f : β → Op ε σ Unit) (s : σ) : forEach f [] s = ⟨.ok (), s, []⟩ := rfl

lemma forEach_cons (f : β → Op ε σ Unit) (b : β) (rest : List β) :
    forEach f (b :: rest) = Op.bind (f b) fun _ => forEach f rest := rfl

lemma forEach_cons_of_ok {f : β → Op ε σ Unit} {b : β} {rest : List β} {s : σ}
    (h : (f b s).result = .ok ()) :
    forEach f (b :: rest) s =
      ⟨(forEach f rest (f b s).state).result, (forEach f rest (f b s).state).state,
        (f b s).events ++ (forEach f rest (f b s).state).events⟩ := by
  rw [forEach_cons, bind_of_ok h]

lemma forEach_cons_of_error {f : β → Op ε σ Unit} {b : β} {rest : List β} {s : σ} {e : ε}
    (h : (f b s).result = .error e) :
    forEach f (b :: rest) s = ⟨.error e, (f b s).state, (f b s).events⟩ := by
  rw [forEach_cons, bind_of_error h]

/-- A loop over two lists is the loop over the first and then over the second. -/
lemma forEach_append (f : β → Op ε σ Unit) (l l' : List β) :
    forEach f (l ++ l') = Op.bind (forEach f l) fun _ => forEach f l' := by
  induction l with
  | nil => funext s; simp [Op.bind]
  | cons b rest ih => rw [List.cons_append, forEach_cons, ih, forEach_cons, bind_assoc]

/-- What every round of a loop keeps, the loop keeps, also when it stops at a failure. -/
lemma forEach_keeps {P : σ → Prop} {f : β → Op ε σ Unit} {l : List β}
    (hf : ∀ b ∈ l, ∀ s, P s → P (f b s).state) {s : σ} (hs : P s) : P (forEach f l s).state := by
  induction l generalizing s with
  | nil => exact hs
  | cons b rest ih =>
    rw [forEach_cons]
    refine bind_keeps (hf b List.mem_cons_self s hs) fun _ hs' => ?_
    exact ih (fun b hb => hf b (List.mem_cons_of_mem _ hb)) hs'

/-- What every round that succeeds keeps, a loop that succeeds keeps. -/
lemma forEach_keeps_of_ok {P : σ → Prop} {f : β → Op ε σ Unit} {l : List β}
    (hf : ∀ b ∈ l, ∀ s, P s → (f b s).result = .ok () → P (f b s).state) {s : σ} (hs : P s)
    (h : (forEach f l s).result = .ok ()) : P (forEach f l s).state := by
  induction l generalizing s with
  | nil => exact hs
  | cons b rest ih =>
    cases hb : (f b s).result with
    | error e =>
      rw [forEach_cons_of_error hb] at h
      cases h
    | ok a =>
      rw [forEach_cons_of_ok hb] at h ⊢
      exact ih (fun b hb => hf b (List.mem_cons_of_mem _ hb)) (hf b List.mem_cons_self s hs hb) h

/-- What a round that succeeds brings about and later rounds keep, a loop that succeeds brings about
for every member. -/
lemma forEach_reaches {Q : β → σ → Prop} {f : β → Op ε σ Unit}
    (hnow : ∀ b s, (f b s).result = .ok () → Q b (f b s).state)
    (hkeep : ∀ b b' s, Q b s → (f b' s).result = .ok () → Q b (f b' s).state)
    {l : List β} {s : σ} (h : (forEach f l s).result = .ok ()) :
    ∀ b ∈ l, Q b (forEach f l s).state := by
  induction l generalizing s with
  | nil => simp
  | cons b rest ih =>
    cases hb : (f b s).result with
    | error e =>
      rw [forEach_cons_of_error hb] at h
      cases h
    | ok a =>
      rw [forEach_cons_of_ok hb] at h ⊢
      refine List.forall_mem_cons.2 ⟨?_, ih h⟩
      exact forEach_keeps_of_ok (P := Q b) (fun b' _ s => hkeep b b' s) (hnow b s hb) h

/-- A loop whose every round succeeds under an invariant and keeps it succeeds and keeps it. -/
lemma forEach_succeeds {P : σ → Prop} {f : β → Op ε σ Unit} {l : List β}
    (hf : ∀ b ∈ l, ∀ s, P s → (f b s).result = .ok () ∧ P (f b s).state) {s : σ} (hs : P s) :
    (forEach f l s).result = .ok () ∧ P (forEach f l s).state := by
  induction l generalizing s with
  | nil => exact ⟨rfl, hs⟩
  | cons b rest ih =>
    obtain ⟨hok, hs'⟩ := hf b List.mem_cons_self s hs
    rw [forEach_cons_of_ok hok]
    exact ih (fun b hb => hf b (List.mem_cons_of_mem _ hb)) hs'

/-- A loop whose every round succeeds where the rounds before it lead succeeds, and leads there. -/
lemma forEach_follows {P : List β → σ → Prop} {f : β → Op ε σ Unit} {l : List β}
    (hf : ∀ before b rest, l = before ++ b :: rest → ∀ s, P before s →
      (f b s).result = .ok () ∧ P (before ++ [b]) (f b s).state) {s : σ} (hs : P [] s) :
    (forEach f l s).result = .ok () ∧ P l (forEach f l s).state := by
  have hrest : ∀ rest before s, l = before ++ rest → P before s →
      (forEach f rest s).result = .ok () ∧ P l (forEach f rest s).state := by
    intro rest
    induction rest with
    | nil =>
      intro before s hl hs
      rw [hl, List.append_nil]
      exact ⟨rfl, hs⟩
    | cons b rest ih =>
      intro before s hl hs
      obtain ⟨hok, hs'⟩ := hf before b rest hl s hs
      rw [forEach_cons_of_ok hok]
      exact ih (before ++ [b]) _ (by rw [hl, List.append_assoc, List.singleton_append]) hs'
  exact hrest l [] s rfl hs

/-- Two runs of a loop have the same result and end in related states, if each round does this. -/
lemma forEach_relates {R : σ → σ → Prop} {f : β → Op ε σ Unit} {l : List β}
    (hf : ∀ b ∈ l, ∀ s s', R s s' →
      (f b s').result = (f b s).result ∧ R (f b s).state (f b s').state)
    {s s' : σ} (hs : R s s') :
    (forEach f l s').result = (forEach f l s).result ∧
      R (forEach f l s).state (forEach f l s').state := by
  induction l generalizing s s' with
  | nil => exact ⟨rfl, hs⟩
  | cons b rest ih =>
    obtain ⟨hresult, hstate⟩ := hf b List.mem_cons_self s s' hs
    cases hb : (f b s).result with
    | error e =>
      rw [forEach_cons_of_error hb, forEach_cons_of_error (hresult.trans hb)]
      exact ⟨rfl, hstate⟩
    | ok a =>
      rw [forEach_cons_of_ok hb, forEach_cons_of_ok (hresult.trans hb)]
      exact ih (fun b hb => hf b (List.mem_cons_of_mem _ hb)) hstate

/-- A loop that fails went through the first part of its list and failed at the next member. -/
lemma forEach_stops {f : β → Op ε σ Unit} {l : List β} {s : σ} {e : ε}
    (h : (forEach f l s).result = .error e) :
    ∃ before b rest, l = before ++ b :: rest ∧ (forEach f before s).result = .ok () ∧
      (f b (forEach f before s).state).result = .error e ∧
      (forEach f l s).state = (f b (forEach f before s).state).state := by
  induction l generalizing s with
  | nil => simp at h
  | cons b rest ih =>
    cases hb : (f b s).result with
    | error e' =>
      rw [forEach_cons_of_error hb] at h ⊢
      exact ⟨[], b, rest, rfl, rfl, hb.trans h, rfl⟩
    | ok a =>
      rw [forEach_cons_of_ok hb] at h ⊢
      obtain ⟨before, b', rest', hl, hok, he, hstate⟩ := ih h
      refine ⟨b :: before, b', rest', by rw [hl, List.cons_append], ?_⟩
      rw [forEach_cons_of_ok hb]
      exact ⟨hok, he, hstate⟩

/-- A loop fails only with the failure of one of its rounds. -/
lemma forEach_fails {P : σ → Prop} {f : β → Op ε σ Unit} {l : List β} {e : ε}
    (hf : ∀ b ∈ l, ∀ s, P s → P (f b s).state) {s : σ} (hs : P s)
    (h : (forEach f l s).result = .error e) :
    ∃ b ∈ l, ∃ s', P s' ∧ (f b s').result = .error e := by
  obtain ⟨before, b, rest, rfl, -, he, -⟩ := forEach_stops h
  have hbefore : P (forEach f before s).state :=
    forEach_keeps (fun b hb => hf b (List.mem_append_left _ hb)) hs
  exact ⟨b, by simp, _, hbefore, he⟩

/-- A loop over one member more is a loop that succeeded and one more round. -/
lemma forEach_append_singleton_of_ok {f : β → Op ε σ Unit} {l : List β} {b : β} {s : σ}
    (h : (forEach f (l ++ [b]) s).result = .ok ()) :
    (forEach f l s).result = .ok () ∧ (f b (forEach f l s).state).result = .ok () ∧
      (forEach f (l ++ [b]) s).state = (f b (forEach f l s).state).state := by
  rw [forEach_append] at h ⊢
  cases hl : (forEach f l s).result with
  | error e => rw [bind_of_error hl] at h; cases h
  | ok a =>
    rw [bind_of_ok hl] at h ⊢
    cases hb : (f b (forEach f l s).state).result with
    | error e => rw [forEach_cons_of_error hb] at h; cases h
    | ok a => exact ⟨rfl, rfl, by rw [forEach_cons_of_ok hb, forEach_nil]⟩

/-- A map of states that goes along with every round goes along with the loop. -/
lemma forEach_commutes {τ : Type} {φ : σ → τ} {f : β → Op ε σ Unit} {g : β → Op ε τ Unit}
    (h : ∀ b s, (g b (φ s)).result = (f b s).result ∧ (g b (φ s)).state = φ (f b s).state)
    (l : List β) (s : σ) :
    (forEach g l (φ s)).result = (forEach f l s).result ∧
      (forEach g l (φ s)).state = φ (forEach f l s).state := by
  induction l generalizing s with
  | nil => exact ⟨rfl, rfl⟩
  | cons b rest ih =>
    obtain ⟨hresult, hstate⟩ := h b s
    cases hb : (f b s).result with
    | error e =>
      rw [forEach_cons_of_error hb, forEach_cons_of_error (hresult.trans hb)]
      exact ⟨rfl, hstate⟩
    | ok a =>
      rw [forEach_cons_of_ok hb, forEach_cons_of_ok (hresult.trans hb), hstate]
      exact ih (f b s).state

/-- A loop of rounds that change nothing changes nothing, and succeeds when each of them does. -/
lemma forEach_of_silent {f : β → Op ε σ Unit} {s : σ} (hf : ∀ b, (f b s).state = s) (l : List β) :
    ((forEach f l s).result = .ok () ↔ ∀ b ∈ l, (f b s).result = .ok ()) ∧
      (forEach f l s).state = s := by
  induction l with
  | nil => simp
  | cons b rest ih =>
    cases hb : (f b s).result with
    | error e => simp [forEach_cons_of_error hb, hf, hb]
    | ok a => simp [forEach_cons_of_ok hb, hf, hb, ih]

end Op
end Assessment
