import Mathlib.Data.List.Induction
import TrackCatalog.Proofs.Outcome
import TrackCatalog.Toml.Shape

/-!
# Records field by field

Reading a record goes through what it gives, in the order of a table's keys or of an array's items.
Each part of the result is therefore what was read from its field, or is as it was at the start when
the record does not give that field.

* `Value.field?`: what a record gives for a field.
* `Shape.Sets`: what the fields of a record do to one part of the result.
* `Shape.reads_of_record`: a part of a record that was read.
-/

namespace TrackCatalog.Toml

open Text (Located)

variable {σ α β : Type} {names : List String} {name : String} {es : Entries}

namespace Value

/-- What a record gives, under the names of its fields: the entries of a table, or the items of an
array as far as there are fields. -/
def givenFields (names : List String) : Value → List (String × Located Value)
  | .table _ es => es.map fun e => (e.1.item, e.2)
  | .array _ items => names.zip items
  | _ => []

/-- The last of the values that are given under a name. -/
def lastGiven (name : String) (given : List (String × Located Value)) : Option (Located Value) :=
  ((given.filter fun p => p.1 = name).getLast?).map Prod.snd

/-- What a record gives for a field; if it gave several values the last would count. -/
def field? (names : List String) (name : String) (v : Value) : Option (Located Value) :=
  lastGiven name (v.givenFields names)

end Value

/-- Sorting by key leaves the values under one key in their order. -/
theorem Entries.filter_sorted (es : Entries) (name : String) :
    (es.sorted.filter fun e => e.1.item = name) = es.filter fun e => e.1.item = name := by
  have htrans : ∀ a b c : Located String × Located Value, decide (a.1.item ≤ b.1.item) = true →
      decide (b.1.item ≤ c.1.item) = true → decide (a.1.item ≤ c.1.item) = true := by
    intro a b c hab hbc
    rw [decide_eq_true_eq] at hab hbc ⊢
    exact String.le_trans hab hbc
  have htotal : ∀ a b : Located String × Located Value,
      (decide (a.1.item ≤ b.1.item) || decide (b.1.item ≤ a.1.item)) = true := by
    intro a b
    rw [Bool.or_eq_true, decide_eq_true_eq, decide_eq_true_eq]
    exact String.le_total _ _
  -- equal keys are in order already, so they stay a part of the list as it is sorted
  have hequal : (es.filter fun e => e.1.item = name).Pairwise
      fun a b => decide (a.1.item ≤ b.1.item) = true := by
    rw [List.pairwise_iff_forall_sublist]
    intro a b hab
    have ha := (List.mem_filter.1 (hab.subset List.mem_cons_self)).2
    have hb := (List.mem_filter.1 (hab.subset (List.mem_cons_of_mem _ List.mem_cons_self))).2
    rw [decide_eq_true_eq] at ha hb ⊢
    exact (ha.trans hb.symm) ▸ String.le_refl _
  have hsub := (List.sublist_mergeSort htrans htotal hequal List.filter_sublist).filter
    fun e => decide (e.1.item = name)
  rw [List.filter_filter] at hsub
  simp only [Bool.and_self] at hsub
  exact (hsub.eq_of_length ((List.mergeSort_perm es _).filter _).length_eq.symm).symm

namespace Shape

variable {fields : List (FieldReader σ)} {init r : σ} {v : Located Value} {part : σ → α}
  {R : Located Value → α → Prop}

/-- Among these fields, the one of this name puts what it reads in the place of a part of the result,
where the relation then holds, and the others put what they read elsewhere. -/
inductive Sets (name : String) (part : σ → α) (R : Located Value → α → Prop) :
    List (FieldReader σ) → Prop
  | nil : Sets name part R []
  | same {β : Type} {read : Located Value → Except Misfit β} {put : σ → β → σ}
      {rest : List (FieldReader σ)} (h : ∀ v s b, read v = .ok b → R v (part (put s b)))
      (others : Sets name part R rest) :
      Sets name part R (⟨name, fun v s => do return put s (← read v)⟩ :: rest)
  | other {β : Type} {other : String} {read : Located Value → Except Misfit β} {put : σ → β → σ}
      {rest : List (FieldReader σ)} (hne : other ≠ name) (h : ∀ s b, part (put s b) = part s)
      (others : Sets name part R rest) :
      Sets name part R (⟨other, fun v s => do return put s (← read v)⟩ :: rest)

/-- What a field did to the part. -/
theorem Sets.of_mem (h : Sets name part R fields) :
    ∀ f ∈ fields, ∀ v s s', f.read v s = .ok s' →
      if f.name = name then R v (part s') else part s' = part s := by
  induction h with
  | nil => simp
  | same hput _ ih =>
    refine List.forall_mem_cons.2 ⟨fun v s s' hread => ?_, ih⟩
    rw [if_pos rfl]
    obtain ⟨b, hb, hs⟩ := Except.bind_eq_ok_iff.1 hread
    cases hs
    exact hput v s b hb
  | other hne hput _ ih =>
    refine List.forall_mem_cons.2 ⟨fun v s s' hread => ?_, ih⟩
    rw [if_neg hne]
    obtain ⟨b, -, hs⟩ := Except.bind_eq_ok_iff.1 hread
    cases hs
    exact hput s b

/-- A part of a result is as it was, and nothing was given for it, or it comes from what was
given. -/
def Reads (given : Option β) (R : β → α → Prop) (old new : α) : Prop :=
  (given = none ∧ new = old) ∨ ∃ w, given = some w ∧ R w new

theorem Reads.eq_of_none {given : Option β} {R : β → α → Prop} {old new : α}
    (h : Reads given R old new) (hg : given = none) : new = old := by
  rcases h with ⟨-, hnew⟩ | ⟨w, hw, -⟩
  · exact hnew
  · rw [hg] at hw
    cases hw

/-- A part that was missing at the start and is there in the end was given. -/
theorem Reads.of_some {given : Option β} {read : β → Except Misfit α} {a : α}
    (h : Reads given (fun w new => ∃ b, read w = .ok b ∧ new = some b) none (some a)) :
    ∃ w, given = some w ∧ read w = .ok a := by
  rcases h with ⟨-, he⟩ | ⟨w, hw, b, hb, he⟩
  · cases he
  · cases he
    exact ⟨w, hw, hb⟩

theorem Reads.map {γ : Type} {given : Option β} {R : β → α → Prop} {R' : β → γ → Prop} {old new : α}
    (h : Reads given R old new) (f : α → γ) (h' : ∀ w, R w new → R' w (f new)) :
    Reads given R' (f old) (f new) := by
  rcases h with ⟨hg, hnew⟩ | ⟨w, hg, hw⟩
  · exact .inl ⟨hg, congrArg f hnew⟩
  · exact .inr ⟨w, hg, h' w hw⟩

/-- A part of a part that is read anew, from a bare one, when something is given. -/
theorem Reads.bind_bare {γ δ : Type} {given : Option β} {R : β → α → Prop} {old new : α}
    {next : β → Option γ} {R' : γ → δ → Prop} (h : Reads given R old new) (part : α → δ) (bare : δ)
    (h' : ∀ w, R w new → Reads (next w) R' bare (part new)) :
    Reads (given.bind next) R' (if given.isSome then bare else part old) (part new) := by
  rcases h with ⟨rfl, rfl⟩ | ⟨w, rfl, hw⟩
  · exact .inl ⟨rfl, rfl⟩
  · exact h' w hw

/-- A part of a part. -/
theorem Reads.bind {γ δ : Type} {given : Option β} {R : β → α → Prop} {old new : α}
    {next : β → Option γ} {R' : γ → δ → Prop} (h : Reads given R old new) (part : α → δ)
    (h' : ∀ w, R w new → Reads (next w) R' (part old) (part new)) :
    Reads (given.bind next) R' (part old) (part new) := by
  have hbare := h.bind_bare part (part old) h'
  rwa [ite_self] at hbare

/-- Steps that each set a part or leave it: the last one that sets it counts. -/
theorem reads_of_foldlM {step : σ → β → Except Misfit σ} (name : String) (part : σ → α)
    (R : Located Value → α → Prop) (pair : β → String × Located Value) (ps : List β)
    (hstep : ∀ p ∈ ps, ∀ s s', step s p = .ok s' →
      if (pair p).1 = name then R (pair p).2 (part s') else part s' = part s)
    (h : ps.foldlM step init = .ok r) :
    Reads (Value.lastGiven name (ps.map pair)) R (part init) (part r) := by
  induction ps using List.reverseRecOn generalizing r with
  | nil =>
    cases h
    exact .inl ⟨rfl, rfl⟩
  | append_singleton ps p ih =>
    rw [List.foldlM_append] at h
    obtain ⟨s, hs, hlast⟩ := Except.bind_eq_ok_iff.1 h
    obtain ⟨s', hp, hr⟩ := Except.bind_eq_ok_iff.1 hlast
    cases hr
    have hset := hstep p (List.mem_append_right _ (List.mem_singleton_self p)) s _ hp
    by_cases hname : (pair p).1 = name
    · rw [if_pos hname] at hset
      exact .inr ⟨(pair p).2, by simp [Value.lastGiven, hname], hset⟩
    · rw [if_neg hname] at hset
      have hsame : Value.lastGiven name ((ps ++ [p]).map pair) =
          Value.lastGiven name (ps.map pair) := by
        simp [Value.lastGiven, hname]
      rw [hsame, hset]
      exact ih (fun q hq => hstep q (List.mem_append_left _ hq)) hs

theorem lastGiven_sorted (es : Entries) :
    Value.lastGiven name (es.sorted.map fun e => (e.1.item, e.2)) =
      Value.lastGiven name (es.map fun e => (e.1.item, e.2)) := by
  simp only [Value.lastGiven, List.filter_map, Function.comp_def, es.filter_sorted name]

/-- **A part of a record that was read** is as it was at the start when its field was not given, and
else it comes from what was given. -/
theorem reads_of_record {record : String} (part : σ → α)
    (h : Shape.record record fields init v = .ok r) (hsets : Sets name part R fields) :
    Reads (v.item.field? (fields.map FieldReader.name) name) R (part init) (part r) := by
  unfold Shape.record at h
  split at h
  · next origin es hv =>
    have hgiven := reads_of_foldlM name part R
      (fun e : Located String × Located Value => (e.1.item, e.2)) _ (fun e _ s s' he => ?_) h
    · rw [lastGiven_sorted] at hgiven
      rw [hv, Value.field?, Value.givenFields]
      exact hgiven
    · -- an entry that was read has a field of its name
      dsimp only at he ⊢
      split at he
      · next f hf =>
        have hname : f.name = e.1.item := by simpa using List.find?_some hf
        rw [← hname]
        exact hsets.of_mem f (List.mem_of_find?_eq_some hf) _ _ _ he
      · cases he
  · next origin items hv =>
    have hgiven := reads_of_foldlM name part R
      (fun p : FieldReader σ × Located Value => (p.1.name, p.2)) _
      (fun p hp => hsets.of_mem p.1 (List.of_mem_zip hp).1 p.2) h
    rw [hv, Value.field?, Value.givenFields, List.zip_map_left]
    exact hgiven
  · cases h
  · unfold mismatch at h
    split at h <;> cases h

end Shape

end TrackCatalog.Toml
