import Mathlib.Data.List.TakeWhile

/-!
Texts as tokens. Separators, alone or many in a row, stand between the tokens of
a text (`tokens_token`, `tokens_separator`), and a list of tokens in which some
are headings falls into what stands before the first heading and under each
(`sections_eq`).
-/
namespace WinMiniTools.Tokens
universe u v

variable {α : Type u} {separates : α → Bool}

def tokens (separates : α → Bool) (text : List α) : List (List α) :=
  (text.splitOnP separates).filter (fun token => token ≠ [])

/-- No part of the text is a separator. -/
def Unbroken (separates : α → Bool) (token : List α) : Prop := ∀ c ∈ token, separates c = false

/-- A token that comes before ends there. -/
def Starts (separates : α → Bool) (text : List α) : Prop := ∀ c ∈ text.head?, separates c = true

theorem starts_nil : Starts separates [] := by
  intro c member
  exact absurd member (Option.not_mem_none c)

theorem starts_cons {c : α} (separator : separates c = true) (text : List α) : Starts separates (c :: text) := by
  intro d member
  cases member
  exact separator

theorem unbroken_of_all {token : List α} (all : token.all (fun c => !separates c) = true) :
    Unbroken separates token := by
  intro c member
  simpa using List.all_eq_true.mp all c member

theorem unbroken_append {front rest : List α} (first : Unbroken separates front) (second : Unbroken separates rest) :
    Unbroken separates (front ++ rest) := by
  intro c member
  rcases List.mem_append.mp member with early | late
  · exact first c early
  · exact second c late

theorem tokens_nil : tokens separates [] = [] := by
  rw [tokens, List.splitOnP_nil]
  rfl

theorem tokens_separator {c : α} (separator : separates c = true) (text : List α) :
    tokens separates (c :: text) = tokens separates text := by
  have split := List.splitOnP_append_cons (p := separates) [] text separator
  rw [List.nil_append, List.splitOnP_nil] at split
  rw [tokens, split, List.singleton_append, List.filter_cons_of_neg (by simp)]
  rfl

theorem tokens_token {token : List α} (some : token ≠ []) (unbroken : Unbroken separates token) {text : List α}
    (starts : Starts separates text) : tokens separates (token ++ text) = token :: tokens separates text := by
  cases text with
  | nil =>
    rw [List.append_nil, tokens_nil, tokens, List.splitOnP_eq_singleton unbroken, List.filter_cons_of_pos (by simpa using some)]
    rfl
  | cons c text =>
    have separator : separates c = true := starts c rfl
    rw [tokens_separator separator, tokens,
      List.splitOnP_append_cons_of_forall_mem unbroken c separator text, List.filter_cons_of_pos (by simpa using some)]
    rfl

/-- What stands before the first heading, and under each heading. -/
theorem sections_eq {β : Type u} {ι : Type v} {heads : β → Bool} {heading : ι → β} {body : ι → List β} {xs : List ι}
    (isHeading : ∀ x ∈ xs, heads (heading x) = true) (others : ∀ x ∈ xs, ∀ b ∈ body x, heads b = false)
    {front : List β} (before : ∀ b ∈ front, heads b = false) :
    (front ++ xs.flatMap (fun x => heading x :: body x)).splitOnP heads = front :: xs.map body := by
  induction xs generalizing front with
  | nil => rw [List.flatMap_nil, List.append_nil, List.splitOnP_eq_singleton before, List.map_nil]
  | cons x xs ih =>
    rw [List.flatMap_cons, List.cons_append,
      List.splitOnP_append_cons_of_forall_mem before _ (isHeading x List.mem_cons_self),
      ih (fun y member => isHeading y (List.mem_cons_of_mem x member))
        (fun y member => others y (List.mem_cons_of_mem x member)) (others x List.mem_cons_self), List.map_cons]

end WinMiniTools.Tokens
