import Mathlib.Data.List.Induction
import Mathlib.Tactic.Common

/-! Chains of links in which each carries the digest of its own content and of its predecessor. The
    last digest stands for the whole chain, as far as digests tell the contents in question apart. -/

namespace ScalpingBot.HashChain

variable {π η : Type*}

structure Link (π η : Type*) where
  sequence : ℕ
  previous : Option η
  payload : π
  digest : η

/-- What is digested. -/
abbrev Body (π η : Type*) := ℕ × Option η × π

def Link.body (link : Link π η) : Body π η := (link.sequence, link.previous, link.payload)

/-- The body of the next link. -/
def nextBody (previous : Option (Link π η)) (payload : π) : Body π η :=
  (previous.elim 0 (·.sequence + 1), previous.map Link.digest, payload)

/-- The next link of a chain. -/
def next (hash : Body π η → η) (previous : Option (Link π η)) (payload : π) : Link π η :=
  ⟨previous.elim 0 (·.sequence + 1), previous.map Link.digest, payload,
    hash (nextBody previous payload)⟩

theorem eq_of_body {l l' : Link π η} (hbody : l.body = l'.body) (hdigest : l.digest = l'.digest) :
    l = l' := by
  cases l
  cases l'
  cases hbody
  cases hdigest
  rfl

/-- Every link is the next one of those before it. -/
inductive Chain (hash : Body π η → η) : List (Link π η) → Prop where
  | nil : Chain hash []
  | snoc {links : List (Link π η)} {payload : π} : Chain hash links →
      Chain hash (links ++ [next hash links.getLast? payload])

variable {hash : Body π η → η} {links links' : List (Link π η)} {link link' : Link π η}

theorem chain_snoc : Chain hash (links ++ [link]) ↔
    Chain hash links ∧ link = next hash links.getLast? link.payload := by
  constructor
  · intro h
    generalize hall : links ++ [link] = all at h
    cases h with
    | nil => simp at hall
    | @snoc links' payload h =>
      obtain ⟨rfl, hlink⟩ := List.append_inj' hall rfl
      cases hlink
      exact ⟨h, rfl⟩
  · rintro ⟨h, hlink⟩
    rw [hlink]
    exact .snoc h

/-- A link is the digest of its own body. -/
theorem Chain.digest_eq (h : Chain hash links) : ∀ l ∈ links, l.digest = hash l.body := by
  induction h with
  | nil => simp
  | snoc _ ih =>
    intro l hl
    rcases List.mem_append.mp hl with hl | hl
    · exact ih l hl
    · rw [List.mem_singleton.mp hl]
      rfl

/-- Links are numbered from 0. -/
theorem Chain.sequence_eq (h : Chain hash (links ++ [link])) : link.sequence = links.length := by
  induction links using List.reverseRecOn generalizing link with
  | nil =>
    rw [(chain_snoc.mp h).2]
    rfl
  | append_singleton links last ih =>
    obtain ⟨hchain, hlink⟩ := chain_snoc.mp h
    rw [hlink]
    simp [next, ih hchain]

/-- The digests of two chains tell their contents apart. -/
def Separates (hash : Body π η → η) (links links' : List (Link π η)) : Prop :=
  ∀ l ∈ links, ∀ l' ∈ links', hash l.body = hash l'.body → l.body = l'.body

theorem Separates.mono {more more' : List (Link π η)} (h : Separates hash more more')
    (hsub : links ⊆ more) (hsub' : links' ⊆ more') : Separates hash links links' :=
  fun l hl l' hl' => h l (hsub hl) l' (hsub' hl')

/-- Chains with one last digest are one chain. -/
theorem Chain.eq_of_last (h : Chain hash (links ++ [link])) (h' : Chain hash (links' ++ [link']))
    (hsep : Separates hash (links ++ [link]) (links' ++ [link'])) (hlast : link.digest = link'.digest) :
    links ++ [link] = links' ++ [link'] := by
  induction links using List.reverseRecOn generalizing link links' link' with
  | nil =>
    have hlink := h.digest_eq link (by simp)
    have hlink' := h'.digest_eq link' (by simp)
    have hbody := hsep link (by simp) link' (by simp) (by rw [← hlink, ← hlink', hlast])
    have hsequence : link.sequence = link'.sequence := congrArg Prod.fst hbody
    have hlength : links'.length = 0 := by
      rw [← h'.sequence_eq, ← hsequence]
      exact h.sequence_eq
    rw [List.length_eq_zero_iff.mp hlength, eq_of_body hbody hlast]
  | append_singleton links last ih =>
    have hlink := h.digest_eq link (by simp)
    have hlink' := h'.digest_eq link' (by simp)
    have hbody := hsep link (by simp) link' (by simp) (by rw [← hlink, ← hlink', hlast])
    have hsequence : link.sequence = link'.sequence := congrArg Prod.fst hbody
    have hlength : links'.length = links.length + 1 := by
      rw [← h'.sequence_eq, ← hsequence]
      simpa using h.sequence_eq
    rcases List.eq_nil_or_concat links' with rfl | ⟨links', last', hconcat⟩
    · simp at hlength
    rw [List.concat_eq_append] at hconcat
    subst hconcat
    obtain ⟨hchain, hnext⟩ := chain_snoc.mp h
    obtain ⟨hchain', hnext'⟩ := chain_snoc.mp h'
    have hprevious : link.previous = link'.previous := congrArg (·.2.1) hbody
    rw [hnext, hnext'] at hprevious
    have hdigest : last.digest = last'.digest := by simpa [next] using hprevious
    rw [ih hchain hchain' (hsep.mono (List.subset_append_left _ _) (List.subset_append_left _ _))
      hdigest, eq_of_body hbody hlast]

end ScalpingBot.HashChain
