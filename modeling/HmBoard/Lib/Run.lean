import Mathlib.Logic.Relation

/-!
# Runs of a transition system

A system is a partial step function on labels. `Runs step G s t` says that some sequence of steps,
each with `G` true of the state it is taken in and its label, leads from `s` to `t`. An invariant
of the guarded steps holds in every state reached (`Runs.inv`); a concrete list of labels is a run
by evaluation (`Runs.of_labels`).
-/

namespace HmBoard.Lib

variable {σ ι : Type} {step : σ → ι → Option σ} {G : σ → ι → Prop}

def Runs (step : σ → ι → Option σ) (G : σ → ι → Prop) : σ → σ → Prop :=
  Relation.ReflTransGen fun s s' => ∃ l, G s l ∧ step s l = some s'

/-- No condition on the steps. -/
def anyStep (_ : σ) (_ : ι) : Prop := True

namespace Runs

theorem refl (s : σ) : Runs step G s s := Relation.ReflTransGen.refl

theorem trans {s t u : σ} (h : Runs step G s t) (h' : Runs step G t u) : Runs step G s u :=
  Relation.ReflTransGen.trans h h'

theorem step_one {s t : σ} {l : ι} (hG : G s l) (h : step s l = some t) : Runs step G s t :=
  Relation.ReflTransGen.single ⟨l, hG, h⟩

theorem inv {I : σ → Prop} {s t : σ} (h0 : I s)
    (hs : ∀ s l s', I s → G s l → step s l = some s' → I s') (h : Runs step G s t) : I t := by
  induction h with
  | refl => exact h0
  | tail _ hstep ih =>
    obtain ⟨l, hG, hl⟩ := hstep
    exact hs _ l _ ih hG hl

theorem mono {G' : σ → ι → Prop} (hG : ∀ s l, G s l → G' s l) {s t : σ} (h : Runs step G s t) :
    Runs step G' s t := by
  induction h with
  | refl => exact refl s
  | tail _ hstep ih =>
    obtain ⟨l, h1, h2⟩ := hstep
    exact ih.trans (step_one (hG _ _ h1) h2)

theorem of_labels : ∀ (ls : List ι) {s t : σ}, ls.foldlM step s = some t → Runs step anyStep s t
  | [], s, t, h => by
    obtain rfl : s = t := by simpa using h
    exact refl s
  | l :: ls, s, t, h => by
    rw [List.foldlM_cons] at h
    obtain ⟨u, hu, h⟩ := Option.bind_eq_some_iff.1 h
    exact (step_one trivial hu).trans (of_labels ls h)

end Runs

/-- The steps on `ls` from `s`, as far as they can be taken, are never taken where `Bad` holds. -/
def Avoids (step : σ → ι → Option σ) (Bad : σ → ι → Prop) : σ → List ι → Prop
  | _, [] => True
  | s, l :: ls => ∀ s', step s l = some s' → ¬ Bad s l ∧ Avoids step Bad s' ls

/-- `P` holds in every state on the way. -/
def Along (step : σ → ι → Option σ) (P : σ → Prop) : σ → List ι → Prop
  | s, [] => P s
  | s, l :: ls => P s ∧ ∀ s', step s l = some s' → Along step P s' ls

theorem foldlM_cons {l : ι} {ls : List ι} {s t : σ} (h : (l :: ls).foldlM step s = some t) :
    ∃ u, step s l = some u ∧ ls.foldlM step u = some t := by
  rw [List.foldlM_cons] at h
  exact Option.bind_eq_some_iff.1 h

theorem avoids_cons {Bad : σ → ι → Prop} {l : ι} {ls : List ι} {s u : σ} (h : step s l = some u) :
    Avoids step Bad s (l :: ls) ↔ ¬ Bad s l ∧ Avoids step Bad u ls := by
  constructor
  · intro ha
    exact ha u h
  · intro ha s' hs
    rw [h] at hs
    cases hs
    exact ha

instance decidableAvoids {Bad : σ → ι → Prop} [∀ s l, Decidable (Bad s l)] :
    ∀ (ls : List ι) (s : σ), Decidable (Avoids step Bad s ls)
  | [], _ => isTrue trivial
  | l :: ls, s =>
    match h : step s l with
    | none => isTrue fun _ hs => nomatch h.symm.trans hs
    | some u =>
      have : Decidable (Avoids step Bad u ls) := decidableAvoids ls u
      decidable_of_iff _ (avoids_cons h).symm

theorem Along.head {P : σ → Prop} {s : σ} : ∀ {ls : List ι}, Along step P s ls → P s
  | [], h => h
  | _ :: _, h => h.1

theorem along_cons {P : σ → Prop} {l : ι} {ls : List ι} {s u : σ} (h : step s l = some u) :
    Along step P s (l :: ls) ↔ P s ∧ Along step P u ls := by
  constructor
  · exact fun ha => ⟨ha.1, ha.2 u h⟩
  · intro ha
    refine ⟨ha.1, fun s' hs => ?_⟩
    rw [h] at hs
    cases hs
    exact ha.2

instance decidableAlong {P : σ → Prop} [∀ s, Decidable (P s)] :
    ∀ (ls : List ι) (s : σ), Decidable (Along step P s ls)
  | [], s => inferInstanceAs (Decidable (P s))
  | l :: ls, s =>
    match h : step s l with
    | none =>
      decidable_of_iff (P s) ⟨fun hP => ⟨hP, fun _ hs => nomatch h.symm.trans hs⟩, fun ha => ha.1⟩
    | some u =>
      have : Decidable (Along step P u ls) := decidableAlong ls u
      decidable_of_iff _ (along_cons h).symm

theorem Along.last {P : σ → Prop} : ∀ {ls : List ι} {s t : σ}, Along step P s ls →
    ls.foldlM step s = some t → P t
  | [], s, t, h, ht => by
    obtain rfl : s = t := by simpa using ht
    exact h
  | l :: ls, s, t, h, ht => by
    obtain ⟨u, hu, ht⟩ := foldlM_cons ht
    exact Along.last (h.2 u hu) ht

/-- An invariant of all steps. -/
theorem Along.of_inv {I P : σ → Prop} (hP : ∀ s, I s → P s)
    (hs : ∀ s l s', I s → step s l = some s' → I s') :
    ∀ (ls : List ι) {s : σ}, I s → Along step P s ls
  | [], _, h => hP _ h
  | l :: ls, s, h => ⟨hP s h, fun s' hl => Along.of_inv hP hs ls (hs s l s' h hl)⟩

/-- An invariant of the good steps that gives `P`. -/
theorem Along.of_avoids {I P : σ → Prop} {Bad : σ → ι → Prop} (hP : ∀ s, I s → P s)
    (hgood : ∀ s l s', I s → ¬ Bad s l → step s l = some s' → I s') :
    ∀ (ls : List ι) {s : σ}, I s → Avoids step Bad s ls → Along step P s ls
  | [], s, h, _ => hP s h
  | l :: ls, s, h, ha => by
    refine ⟨hP s h, fun s' hs => ?_⟩
    obtain ⟨hn, ha⟩ := ha s' hs
    exact Along.of_avoids hP hgood ls (hgood s l s' h hn hs) ha

/-- It holds where the good steps lead. -/
theorem Avoids.inv {I : σ → Prop} {Bad : σ → ι → Prop}
    (hgood : ∀ s l s', I s → ¬ Bad s l → step s l = some s' → I s') :
    ∀ {ls : List ι} {s t : σ}, Avoids step Bad s ls → ls.foldlM step s = some t → I s → I t
  | [], s, t, _, ht, h => by
    obtain rfl : s = t := by simpa using ht
    exact h
  | l :: ls, s, t, ha, ht, h => by
    obtain ⟨u, hu, ht⟩ := foldlM_cons ht
    obtain ⟨hn, ha⟩ := ha u hu
    exact Avoids.inv hgood ha ht (hgood s l u h hn hu)

/-- An invariant of the good steps that gives `P`, where a bad step breaks `P`: then `P` holds all
the way exactly when the bad steps are avoided. -/
theorem along_iff_avoids {I P : σ → Prop} {Bad : σ → ι → Prop} (hP : ∀ s, I s → P s)
    (hgood : ∀ s l s', I s → ¬ Bad s l → step s l = some s' → I s')
    (hbad : ∀ s l s', I s → Bad s l → step s l = some s' → ¬ P s') :
    ∀ (ls : List ι) {s : σ}, I s → (Along step P s ls ↔ Avoids step Bad s ls)
  | [], s, h => ⟨fun _ => trivial, fun _ => hP s h⟩
  | l :: ls, s, h => by
    constructor
    · rintro ⟨-, ha⟩ s' hs
      have hn : ¬ Bad s l := fun hb => hbad s l s' h hb hs (ha s' hs).head
      exact ⟨hn, (along_iff_avoids hP hgood hbad ls (hgood s l s' h hn hs)).1 (ha s' hs)⟩
    · exact Along.of_avoids hP hgood (l :: ls) h

/-! ## Runs that return something -/

variable {τ ρ : Type}

/-- The calls one after the other, with what each of them returns. -/
def replay (call : σ → ι → Option (σ × ρ)) : σ → List ι → Option (σ × List ρ)
  | s, [] => some (s, [])
  | s, c :: cs =>
    (call s c).bind fun u => (replay call u.1 cs).map fun v => (v.1, u.2 :: v.2)

theorem replay_cons {call : σ → ι → Option (σ × ρ)} {s t : σ} {c : ι} {cs : List ι} {rs : List ρ}
    (h : replay call s (c :: cs) = some (t, rs)) :
    ∃ u r rs', call s c = some (u, r) ∧ replay call u cs = some (t, rs') ∧ rs = r :: rs' := by
  obtain ⟨⟨u, r⟩, hu, hrest⟩ := Option.bind_eq_some_iff.1 h
  obtain ⟨⟨t', rs'⟩, hv, heq⟩ := Option.map_eq_some_iff.1 hrest
  cases heq
  exact ⟨u, r, rs', hu, hv, rfl⟩

/-- Where one system can follow each call of another with the same result, it can follow a run. -/
theorem replay_simulates {call : σ → ι → Option (σ × ρ)} {spec : τ → ι → Option (τ × ρ)}
    {R : σ → τ → Prop}
    (hR : ∀ s a c a' r, R s a → spec a c = some (a', r) → ∃ s', call s c = some (s', r) ∧ R s' a') :
    ∀ {cs : List ι} {s : σ} {a a' : τ} {rs : List ρ}, R s a → replay spec a cs = some (a', rs) →
      ∃ s', replay call s cs = some (s', rs) ∧ R s' a'
  | [], s, a, a', rs, h, hrun => by
    cases hrun
    exact ⟨s, rfl, h⟩
  | c :: cs, s, a, a', rs, h, hrun => by
    obtain ⟨b, r, rs', hb, hrest, rfl⟩ := replay_cons hrun
    obtain ⟨t, ht, h1⟩ := hR s a c b r h hb
    obtain ⟨s', hs', h2⟩ := replay_simulates hR h1 hrest
    exact ⟨s', by rw [replay, ht, Option.bind_some, hs']; rfl, h2⟩

end HmBoard.Lib
