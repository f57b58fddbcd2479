import PolicyForge.Host.Interrupt
/-!
# Copies of handles

The steps taken so far say everything about the handles.  These are numbered in the order of the
steps that made them (`made`), and each of them goes back to the one that it is a copy of, or a copy
of a copy (`GoesBack`).  A handle is cancelled once a step has cancelled one that goes back to the
same handle, and no other step makes a difference to it (`run_spec`).
-/
namespace PolicyForge.Handles

variable {steps done more : List Step} {s : Step} {h h' : Handles} {t u i o : Nat}

/-! ## What has been done -/

def Step.makes : Step → Bool
  | .create | .copy _ => true
  | .cancel _ => false

/-- The handle that a step needs. -/
def Step.target? : Step → Option Nat
  | .create => none
  | .copy i | .cancel i => some i

/-- The steps that made the handles, in the order of the handles. -/
def made (steps : List Step) : List Step := steps.filter Step.makes

/-- After the steps done already every other one finds the handle that it needs. -/
def Fits (done steps : List Step) : Prop :=
  ∀ before s after, steps = before ++ s :: after → ∀ i, s.target? = some i →
    i < (made (done ++ before)).length

/-- Handle `t` comes by copying from handle `o`, which is no copy. -/
inductive GoesBack (steps : List Step) : Nat → Nat → Prop where
  | created {o : Nat} (h : (made steps)[o]? = some .create) : GoesBack steps o o
  | copied {t i o : Nat} (h : (made steps)[t]? = some (.copy i)) (hi : GoesBack steps i o) :
    GoesBack steps t o

/-- Two handles that go back to the same one. -/
def Kin (steps : List Step) (t u : Nat) : Prop := ∃ o, GoesBack steps t o ∧ GoesBack steps u o

/-- A handle that goes back to the same one as `t` has been cancelled. -/
def Reached (steps : List Step) (t : Nat) : Prop := ∃ i, .cancel i ∈ steps ∧ Kin steps i t

/-- The handles after some steps, if all of them can be taken. -/
def run (h : Handles) : List Step → Option Handles
  | [] => some h
  | s :: steps => (h.after s).bind fun next => next.run steps

/-- What the handle shows: whether it is cancelled, in each of three ways. -/
structure Shows (h : Handles) (t : Nat) (cancelled : Prop) : Prop where
  isCancelled : h.isCancelled t = true ↔ cancelled
  check : h.check t = .error cancelledMessage ↔ cancelled
  passed : h.check t = .ok () ↔ ¬cancelled
  wait : h.wait t = some .over ↔ cancelled

theorem made_append (a b : List Step) : made (a ++ b) = made a ++ made b := List.filter_append ..

theorem getElem?_made_append {a b : List Step} (h : (made a)[t]? = some s) :
    (made (a ++ b))[t]? = some s := by
  rw [made_append, List.getElem?_append_left (List.getElem?_eq_some_iff.1 h).1, h]

theorem GoesBack.append (h : GoesBack steps t o) (more : List Step) : GoesBack (steps ++ more) t o := by
  induction h with
  | created h => exact .created (getElem?_made_append h)
  | copied h _ ih => exact .copied (getElem?_made_append h) ih

theorem Kin.append (h : Kin steps t u) (more : List Step) : Kin (steps ++ more) t u := by
  obtain ⟨o, ht, hu⟩ := h
  exact ⟨o, ht.append more, hu.append more⟩

theorem Reached.append (h : Reached steps t) (more : List Step) : Reached (steps ++ more) t := by
  obtain ⟨i, hi, hkin⟩ := h
  exact ⟨i, List.mem_append_left more hi, hkin.append more⟩

theorem GoesBack.created_of (h : GoesBack steps t o) : (made steps)[o]? = some .create := by
  induction h with
  | created h => exact h
  | copied _ _ ih => exact ih

theorem GoesBack.unique {o' : Nat} (h : GoesBack steps t o) (h' : GoesBack steps t o') : o = o' := by
  induction h with
  | created ho =>
    cases h' with
    | created _ => rfl
    | copied hcopy _ => cases ho.symm.trans hcopy
  | copied hcopy _ ih =>
    cases h' with
    | created ho => cases ho.symm.trans hcopy
    | copied hcopy' hi' =>
      cases hcopy.symm.trans hcopy'
      exact ih hi'

/-! ## One step -/

theorem copy_ok (hcopy : h.copy i = some h') :
    ∃ o, h.owners[i]? = some o ∧ h'.owners = h.owners ++ [o] ∧ h'.signals = h.signals := by
  unfold copy at hcopy
  split at hcopy
  · rename_i hi
    cases hcopy
    exact ⟨h.owners[i], List.getElem?_eq_getElem hi, rfl, rfl⟩
  · cases hcopy

theorem cancel_ok (hcancel : h.cancel i = some h') :
    ∃ o, h.owners[i]? = some o ∧ h'.owners = h.owners ∧
      h'.signals = h.signals.modify o (·.give true) := by
  unfold cancel at hcancel
  split at hcancel
  · rename_i hi
    cases hcancel
    exact ⟨h.owners[i], List.getElem?_eq_getElem hi, rfl, rfl⟩
  · cases hcancel

theorem isSome_after_iff :
    (h.after s).isSome = true ↔ ∀ i, s.target? = some i → i < h.owners.length := by
  cases s with
  | create => exact ⟨fun _ => nofun, fun _ => rfl⟩
  | copy i => simp [after, copy, Step.target?]
  | cancel i => simp [after, cancel, Step.target?]

/-- Each handle has the owner that the step which made it says: a copy that of another one, and any
other its own. -/
structure Shares (ms : List Step) (owners : List Nat) : Prop where
  count : owners.length = ms.length
  copies : ∀ t i : Nat, ms[t]? = some (.copy i) → i < t ∧ owners[t]? = owners[i]?
  creations : ∀ t u : Nat, ms[t]? = some .create → ms[u]? = some .create →
    owners[t]? = owners[u]? → t = u

/-- The handles as the steps have made them, with the signals of those that have been cancelled given. -/
structure Reflects (steps : List Step) (h : Handles) : Prop extends Shares (made steps) h.owners where
  targets : ∀ i, .cancel i ∈ steps → i < h.owners.length
  value : ∀ (o : Nat) (f : Signal), h.signals[o]? = some f →
    (f.value = true ↔ ∃ i, .cancel i ∈ steps ∧ h.owners[i]? = some o)
  given : ∀ (o : Nat) (f : Signal), h.signals[o]? = some f → (f.value = true ↔ f.given ≠ 0)

theorem reflects_empty : Reflects [] empty := ⟨⟨rfl, nofun, nofun⟩, nofun, nofun, nofun⟩

theorem getElem?_snoc_eq_some_iff {α : Type} {l : List α} {a x : α} :
    (l ++ [a])[t]? = some x ↔ l[t]? = some x ∨ t = l.length ∧ x = a := by
  rcases Nat.lt_trichotomy t l.length with hlt | rfl | hgt
  · rw [List.getElem?_append_left hlt]
    exact ⟨.inl, fun h => h.resolve_right fun h => Nat.ne_of_lt hlt h.1⟩
  · simp [eq_comm]
  · rw [List.getElem?_eq_none (by rw [List.length_append]; exact hgt),
      List.getElem?_eq_none (Nat.le_of_lt hgt)]
    exact ⟨nofun, fun h => absurd (h.resolve_left nofun).1 (Nat.ne_of_gt hgt)⟩

theorem Shares.snoc {ms : List Step} {owners : List Nat} {c : Nat} (hshares : Shares ms owners)
    (hcopy : ∀ i, s = .copy i → owners[i]? = some c) (hcreate : s = .create → c ∉ owners) :
    Shares (ms ++ [s]) (owners ++ [c]) := by
  have hold : ∀ {t : Nat}, t < owners.length → (owners ++ [c])[t]? = owners[t]? :=
    List.getElem?_append_left
  have hnew : (owners ++ [c])[owners.length]? = some c := List.getElem?_concat_length
  have hlt : ∀ {t : Nat} {x : Step}, ms[t]? = some x → t < owners.length := fun ht => by
    rw [hshares.count]
    exact (List.getElem?_eq_some_iff.1 ht).1
  refine ⟨?count, ?copies, ?creations⟩
  case count =>
    rw [List.length_append, List.length_append, hshares.count, List.length_singleton,
      List.length_singleton]
  case copies =>
    intro t i ht
    rw [getElem?_snoc_eq_some_iff, ← hshares.count] at ht
    rcases ht with ht | ⟨rfl, hi⟩
    · obtain ⟨hit, heq⟩ := hshares.copies t i ht
      rw [hold (hlt ht), hold (Nat.lt_trans hit (hlt ht))]
      exact ⟨hit, heq⟩
    · have hi := hcopy i hi.symm
      have hlength := (List.getElem?_eq_some_iff.1 hi).1
      rw [hnew, hold hlength, hi]
      exact ⟨hlength, rfl⟩
  case creations =>
    have hfresh : ∀ {t : Nat}, s = .create → ms[t]? = some .create →
        (owners ++ [c])[t]? ≠ some c := by
      intro t hs ht hc
      rw [hold (hlt ht)] at hc
      exact hcreate hs (List.mem_of_getElem? hc)
    intro t u ht hu heq
    rw [getElem?_snoc_eq_some_iff, ← hshares.count] at ht hu
    rcases ht with ht | ⟨rfl, hs⟩ <;> rcases hu with hu | ⟨rfl, hs'⟩
    · rw [hold (hlt ht), hold (hlt hu)] at heq
      exact hshares.creations t u ht hu heq
    · rw [hnew] at heq
      exact absurd heq (hfresh hs'.symm ht)
    · rw [hnew] at heq
      exact absurd heq.symm (hfresh hs.symm hu)
    · rfl

/-- **A handle is made**: with the signal of the one that it is a copy of, or with one that nobody has. -/
theorem Reflects.make {c : Nat} (hr : Reflects steps h) (hs : s.makes = true)
    (howners : h'.owners = h.owners ++ [c]) (hcopy : ∀ i, s = .copy i → h.owners[i]? = some c)
    (hcreate : s = .create → c ∉ h.owners)
    (hsignals : ∀ (o : Nat) (f : Signal), h'.signals[o]? = some f →
      h.signals[o]? = some f ∨ o ∉ h.owners ∧ f = .start) :
    Reflects (steps ++ [s]) h' := by
  have hmade : made (steps ++ [s]) = made steps ++ [s] := by
    rw [made_append]
    exact congrArg (made steps ++ ·) (List.filter_cons_of_pos hs)
  have hcancel : ∀ {i : Nat}, .cancel i ∈ steps ++ [s] ↔ .cancel i ∈ steps := by
    intro i
    rw [List.mem_append, List.mem_singleton]
    refine or_iff_left fun heq => ?_
    rw [← heq] at hs
    cases hs
  have hgiven : ∀ {o : Nat}, (∃ i, .cancel i ∈ steps ++ [s] ∧ h'.owners[i]? = some o) ↔
      ∃ i, .cancel i ∈ steps ∧ h.owners[i]? = some o := by
    intro o
    refine exists_congr fun i => ?_
    rw [hcancel, howners]
    exact and_congr_right fun hi => by rw [List.getElem?_append_left (hr.targets i hi)]
  refine ⟨?shares, ?targets, ?value, ?given⟩
  case shares =>
    rw [hmade, howners]
    exact hr.toShares.snoc hcopy hcreate
  case targets =>
    intro i hi
    rw [howners, List.length_append]
    exact Nat.lt_add_right _ (hr.targets i (hcancel.1 hi))
  case value =>
    intro o f hf
    rw [hgiven]
    rcases hsignals o f hf with hf | ⟨ho, rfl⟩
    · exact hr.value o f hf
    · exact ⟨nofun, fun ⟨i, _, hi⟩ => absurd (List.mem_of_getElem? hi) ho⟩
  case given =>
    intro o f hf
    rcases hsignals o f hf with hf | ⟨-, rfl⟩
    · exact hr.given o f hf
    · decide

theorem Reflects.create (hr : Reflects steps h) : Reflects (steps ++ [.create]) h.create := by
  have hfree : h.signals.length ∉ h.owners := fun hmem => Nat.lt_irrefl _ (h.owned _ hmem)
  refine hr.make rfl rfl nofun (fun _ => hfree) fun o f hf => ?_
  rw [Handles.create, getElem?_snoc_eq_some_iff] at hf
  rcases hf with hf | ⟨rfl, rfl⟩
  · exact .inl hf
  · exact .inr ⟨hfree, rfl⟩

theorem Reflects.copy (hr : Reflects steps h) (hcopy : h.copy i = some h') :
    Reflects (steps ++ [.copy i]) h' := by
  obtain ⟨c, hc, howners, hsignals⟩ := copy_ok hcopy
  refine hr.make rfl howners ?_ nofun fun o f hf => .inl (hsignals ▸ hf)
  rintro _ ⟨⟩
  exact hc

/-- **A handle is cancelled**: its signal is given, and no other one. -/
theorem Reflects.cancel (hr : Reflects steps h) (hcancel : h.cancel i = some h') :
    Reflects (steps ++ [.cancel i]) h' := by
  obtain ⟨c, hc, howners, hsignals⟩ := cancel_ok hcancel
  have hmade : made (steps ++ [.cancel i]) = made steps := by
    rw [made_append]
    exact List.append_nil _
  have hmem : ∀ {k : Nat}, .cancel k ∈ steps ++ [.cancel i] ↔ .cancel k ∈ steps ∨ k = i := by simp
  -- only the signal of the owner `c` is another one, and that has been given
  have hsignal : ∀ {o : Nat} {f : Signal}, h'.signals[o]? = some f →
      (o = c ∧ ∃ f' : Signal, f = f'.give true) ∨ o ≠ c ∧ h.signals[o]? = some f := by
    intro o f hf
    rw [hsignals, List.getElem?_modify] at hf
    obtain ⟨f', hf', hgive⟩ := Option.map_eq_some_iff.1 hf
    by_cases hoc : c = o
    · rw [if_pos hoc] at hgive
      exact .inl ⟨hoc.symm, f', hgive.symm⟩
    · rw [if_neg hoc] at hgive
      exact .inr ⟨fun h => hoc h.symm, hgive ▸ hf'⟩
  refine ⟨?shares, ?targets, ?value, ?given⟩
  case shares =>
    rw [howners, hmade]
    exact hr.toShares
  case targets =>
    intro k hk
    rw [howners]
    rcases hmem.1 hk with hk | rfl
    · exact hr.targets k hk
    · exact (List.getElem?_eq_some_iff.1 hc).1
  case value =>
    intro o f hf
    rw [howners]
    rcases hsignal hf with ⟨rfl, f', rfl⟩ | ⟨hne, hf⟩
    · exact ⟨fun _ => ⟨i, hmem.2 (.inr rfl), hc⟩, fun _ => rfl⟩
    · rw [hr.value o f hf]
      refine exists_congr fun k => and_congr_left fun hk => ?_
      rw [hmem]
      refine (or_iff_left ?_).symm
      rintro rfl
      exact hne (Option.some.inj (hk.symm.trans hc))
  case given =>
    intro o f hf
    rcases hsignal hf with ⟨rfl, f', rfl⟩ | ⟨-, hf⟩
    · exact ⟨fun _ => Nat.succ_ne_zero _, fun _ => rfl⟩
    · exact hr.given o f hf

theorem Reflects.after (hr : Reflects steps h) (hs : h.after s = some h') :
    Reflects (steps ++ [s]) h' := by
  cases s with
  | create =>
    cases hs
    exact hr.create
  | copy i => exact hr.copy hs
  | cancel i => exact hr.cancel hs

/-- **The handles after a run are as the steps have made them.** -/
theorem Reflects.run :
    ∀ {more done : List Step} {h h' : Handles}, Reflects done h → h.run more = some h' →
    Reflects (done ++ more) h'
  | [], done, h, h', hr, hrun => by
    cases hrun
    rwa [List.append_nil]
  | s :: more, done, h, h', hr, hrun => by
    obtain ⟨next, hnext, hrest⟩ := Option.bind_eq_some_iff.1 hrun
    have := (hr.after hnext).run hrest
    rwa [List.append_assoc] at this

theorem fits_cons : Fits done (s :: more) ↔
    (∀ i, s.target? = some i → i < (made done).length) ∧ Fits (done ++ [s]) more := by
  constructor
  · intro hfits
    constructor
    · have hfirst := hfits [] s more rfl
      rwa [List.append_nil] at hfirst
    · intro before x after hmore
      have hlater := hfits (s :: before) x after (congrArg (s :: ·) hmore)
      rwa [List.append_cons] at hlater
  · rintro ⟨hfirst, hlater⟩ before x after hmore
    cases before with
    | nil =>
      obtain ⟨rfl, -⟩ := List.cons.inj hmore
      rwa [List.append_nil]
    | cons b before =>
      obtain ⟨rfl, hrest⟩ := List.cons.inj hmore
      rw [List.append_cons]
      exact hlater before x after hrest

/-- **A run goes through whenever every step finds the handle that it needs.** -/
theorem Reflects.isSome_run_iff : ∀ {more done : List Step} {h : Handles}, Reflects done h →
    ((h.run more).isSome = true ↔ Fits done more)
  | [], done, h, hr => ⟨fun _ before s after hnil => by simp at hnil, fun _ => rfl⟩
  | s :: more, done, h, hr => by
    have htarget : (h.after s).isSome = true ↔ ∀ i, s.target? = some i → i < (made done).length := by
      rw [isSome_after_iff, hr.count]
    rw [fits_cons, ← htarget, Handles.run]
    cases hs : h.after s with
    | none => simp
    | some next => simp [(hr.after hs).isSome_run_iff]

/-! ## Where handles come from -/

theorem GoesBack.owner_eq (hr : Reflects steps h) (hback : GoesBack steps t o) :
    h.owners[t]? = h.owners[o]? := by
  induction hback with
  | created _ => rfl
  | copied ht _ ih => exact (hr.copies _ _ ht).2.trans ih

/-- Every handle goes back to some handle, since what it is a copy of was there before it. -/
theorem Reflects.exists_goesBack (hr : Reflects steps h) (ht : t < h.owners.length) :
    ∃ o, GoesBack steps t o := by
  induction t using Nat.strongRecOn with
  | ind t ih =>
    rw [hr.count] at ht
    have hmade := List.getElem?_eq_getElem ht
    cases hs : (made steps)[t] with
    | create => exact ⟨t, .created (hs ▸ hmade)⟩
    | copy i =>
      rw [hs] at hmade
      have hit := (hr.copies t i hmade).1
      obtain ⟨o, hi⟩ := ih i hit (hr.count ▸ Nat.lt_trans hit ht)
      exact ⟨o, .copied hmade hi⟩
    | cancel i =>
      have hmem := List.mem_filter.1 (hs ▸ List.getElem_mem ht)
      exact absurd hmem.2 nofun

/-- **Two handles share a signal if and only if they go back to the same one.** -/
theorem Reflects.owner_eq_iff (hr : Reflects steps h) (ht : t < h.owners.length)
    (hu : u < h.owners.length) :
    h.owners[t]? = h.owners[u]? ↔ Kin steps t u := by
  constructor
  · intro heq
    obtain ⟨o, hto⟩ := hr.exists_goesBack ht
    obtain ⟨o', huo⟩ := hr.exists_goesBack hu
    have howners := (hto.owner_eq hr).symm.trans (heq.trans (huo.owner_eq hr))
    obtain rfl : o = o' := hr.creations o o' hto.created_of huo.created_of howners
    exact ⟨o, hto, huo⟩
  · rintro ⟨o, hto, huo⟩
    exact (hto.owner_eq hr).trans (huo.owner_eq hr).symm

/-! ## What handles show -/

theorem Reflects.signal (hr : Reflects steps h) (ht : t < h.owners.length) :
    ∃ f, h.signal? t = some f ∧ (f.value = true ↔ Reached steps t) ∧
      (f.value = true ↔ f.given ≠ 0) := by
  have howner := List.getElem?_eq_getElem ht
  have hsignal := List.getElem?_eq_getElem (h.owned _ (List.getElem_mem ht))
  refine ⟨_, ?_, ?_, hr.given _ _ hsignal⟩
  · rw [signal?, howner]
    exact hsignal
  · rw [hr.value _ _ hsignal]
    refine exists_congr fun i => and_congr_right fun hi => ?_
    rw [← hr.owner_eq_iff (hr.targets i hi) ht, howner]

theorem Reflects.shows (hr : Reflects steps h) (ht : t < h.owners.length) :
    Shows h t (Reached steps t) := by
  obtain ⟨f, hf, hvalue, -⟩ := hr.signal ht
  have hcancelled : h.isCancelled t = f.value := by rw [isCancelled, hf, Option.any_some]
  rw [← hvalue]
  refine ⟨by rw [hcancelled], ?_, ?_, ?_⟩
  · unfold check
    rw [hcancelled]
    cases f.value <;> simp
  · unfold check
    rw [hcancelled]
    cases f.value <;> simp
  · rw [wait, hf, Option.map_some, Signal.wait]
    cases f.value <;> simp

/-! ## What makes no difference -/

/-- A step changes nothing about a handle but by cancelling one that shares its signal. -/
theorem signal?_after (hs : h.after s = some h') (ht : t < h.owners.length)
    (hother : ∀ i, s = .cancel i → h.owners[i]? ≠ h.owners[t]?) : h'.signal? t = h.signal? t := by
  have howner := List.getElem?_eq_getElem ht
  cases s with
  | create =>
    cases hs
    rw [signal?, signal?, create, List.getElem?_append_left ht, howner]
    exact List.getElem?_append_left (h.owned _ (List.getElem_mem ht))
  | copy i =>
    obtain ⟨c, -, howners, hsignals⟩ := copy_ok hs
    rw [signal?, signal?, howners, hsignals, List.getElem?_append_left ht]
  | cancel i =>
    obtain ⟨c, hc, howners, hsignals⟩ := cancel_ok hs
    have hne : c ≠ h.owners[t] := fun heq => hother i rfl (by rw [hc, howner, heq])
    rw [signal?, signal?, howners, hsignals, howner]
    exact List.getElem?_modify_ne _ _ hne

theorem Reflects.length_le (hr : Reflects steps h) (hr' : Reflects (steps ++ more) h') :
    h.owners.length ≤ h'.owners.length := by
  rw [hr.count, hr'.count, made_append, List.length_append]
  exact Nat.le_add_right _ _

/-- **A run changes nothing about a handle as long as it cancels nothing that goes back to the same
one.** -/
theorem Reflects.signal?_run :
    ∀ {more done : List Step} {h h' : Handles}, Reflects done h → t < h.owners.length →
    h.run more = some h' → (∀ i, .cancel i ∈ more → ¬Kin (done ++ more) i t) →
    h'.signal? t = h.signal? t
  | [], done, h, h', _, _, hrun, _ => by
    cases hrun
    rfl
  | s :: more, done, h, h', hr, ht, hrun, hother => by
    obtain ⟨next, hnext, hrest⟩ := Option.bind_eq_some_iff.1 hrun
    rw [List.append_cons] at hother
    have hfirst : ∀ i, s = .cancel i → h.owners[i]? ≠ h.owners[t]? := by
      rintro i rfl heq
      have hi := isSome_after_iff.1 (Option.isSome_of_eq_some hnext) i rfl
      have hkin := (hr.owner_eq_iff hi ht).1 heq
      exact hother i List.mem_cons_self ((hkin.append _).append more)
    rw [(hr.after hnext).signal?_run (Nat.lt_of_lt_of_le ht (hr.length_le (hr.after hnext))) hrest
      fun i hi => hother i (List.mem_cons_of_mem s hi), signal?_after hnext ht hfirst]

theorem run_append (h : Handles) (a b : List Step) :
    h.run (a ++ b) = (h.run a).bind fun next => next.run b := by
  induction a generalizing h with
  | nil => rfl
  | cons s a ih =>
    rw [List.cons_append, run, run, Option.bind_assoc]
    exact congrArg _ (funext ih)

/-! ## Runs -/

/-- **A handle is cancelled once something that goes back to the same handle has been.**  However
handles are made, copied and cancelled, as long as there are those that the steps need: each handle
goes back to exactly one; it shows that it is cancelled, by failing and by not waiting as well, if
and only if a handle that goes back to the same one has been cancelled; it shows so from then on;
and what is done with the other ones makes no difference to it. -/
theorem run_spec (steps : List Step) :
    ((empty.run steps).isSome = true ↔ Fits [] steps) ∧
    ∀ h, empty.run steps = some h →
      h.owners.length = (made steps).length ∧
      ∀ t < h.owners.length,
        (∃ o, GoesBack steps t o ∧ ∀ o', GoesBack steps t o' → o' = o) ∧
        Shows h t (Reached steps t) ∧
        ∀ more h', empty.run (steps ++ more) = some h' →
          (h.isCancelled t = true → h'.isCancelled t = true) ∧
          ((∀ i, .cancel i ∈ more → ¬Kin (steps ++ more) i t) →
            h'.isCancelled t = h.isCancelled t ∧ h'.check t = h.check t ∧ h'.wait t = h.wait t) := by
  refine ⟨reflects_empty.isSome_run_iff, fun h hrun => ?_⟩
  have hr : Reflects steps h := reflects_empty.run hrun
  refine ⟨hr.count, fun t ht => ⟨?_, hr.shows ht, fun more h' hmore => ?_⟩⟩
  · obtain ⟨o, ho⟩ := hr.exists_goesBack ht
    exact ⟨o, ho, fun o' ho' => ho'.unique ho⟩
  · have hr' : Reflects (steps ++ more) h' := reflects_empty.run hmore
    rw [run_append, hrun, Option.bind_some] at hmore
    constructor
    · intro hcancelled
      have hreached := (hr.shows ht).isCancelled.1 hcancelled
      exact (hr'.shows (Nat.lt_of_lt_of_le ht (hr.length_le hr'))).isCancelled.2 (hreached.append more)
    · intro hother
      have hsignal := hr.signal?_run ht hmore hother
      have hcancelled : h'.isCancelled t = h.isCancelled t := by rw [isCancelled, isCancelled, hsignal]
      exact ⟨hcancelled, by rw [check, check, hcancelled], by rw [wait, wait, hsignal]⟩

/-- Of two handles the first is copied, also from a copy, and a copy is cancelled before the last
copy is made: all of these are cancelled, and the second handle never is. -/
theorem run_spec_branches : ∃ h h',
    empty.run [.create, .copy 0, .create, .copy 1, .cancel 1, .copy 0] = some h ∧
    Shows h 3 True ∧ Shows h 4 True ∧ Shows h 2 False ∧
    empty.run ([.create, .copy 0, .create, .copy 1, .cancel 1, .copy 0] ++ [.cancel 4]) = some h' ∧
    h'.isCancelled 3 = true ∧ h'.check 2 = h.check 2 := by
  generalize hsteps : [Step.create, .copy 0, .create, .copy 1, .cancel 1, .copy 0] = steps
  have hrun : (empty.run steps).isSome = true := by rw [← hsteps]; decide
  have hrun' : (empty.run (steps ++ [.cancel 4])).isSome = true := by rw [← hsteps]; decide
  obtain ⟨h, hrun⟩ := Option.isSome_iff_exists.1 hrun
  obtain ⟨h', hrun'⟩ := Option.isSome_iff_exists.1 hrun'
  have hfirst : GoesBack steps 0 0 := .created (by rw [← hsteps]; rfl)
  have hcopied : GoesBack steps 1 0 := .copied (by rw [← hsteps]; rfl) hfirst
  have hown : GoesBack steps 2 2 := .created (by rw [← hsteps]; rfl)
  have htwice : GoesBack steps 3 0 := .copied (by rw [← hsteps]; rfl) hcopied
  have hlater : GoesBack steps 4 0 := .copied (by rw [← hsteps]; rfl) hfirst
  have hcancel : ∀ i, .cancel i ∈ steps ↔ i = 1 := by simp [← hsteps]
  have hreached : ∀ t, GoesBack steps t 0 → Reached steps t :=
    fun t ht => ⟨1, (hcancel 1).2 rfl, 0, hcopied, ht⟩
  have hother : ¬Reached steps 2 := by
    rintro ⟨i, hi, o, hio, ho⟩
    obtain rfl := (hcancel i).1 hi
    cases (hcopied.unique hio).trans (hown.unique ho).symm
  have hapart : ∀ i, .cancel i ∈ [Step.cancel 4] → ¬Kin (steps ++ [.cancel 4]) i 2 := by
    rintro i hi ⟨o, hio, ho⟩
    obtain rfl : i = 4 := by simpa using hi
    cases ((hlater.append _).unique hio).trans ((hown.append _).unique ho).symm
  obtain ⟨hcount, hspec⟩ := (run_spec steps).2 h hrun
  have hlength : h.owners.length = 5 := by rw [hcount, ← hsteps]; rfl
  obtain ⟨-, hthree, hstays⟩ := hspec 3 (by omega)
  obtain ⟨-, htwo, hsame⟩ := hspec 2 (by omega)
  have hfour := (hspec 4 (by omega)).2.1
  rw [eq_true (hreached 3 htwice)] at hthree
  rw [eq_true (hreached 4 hlater)] at hfour
  rw [eq_false hother] at htwo
  refine ⟨h, h', hrun, hthree, hfour, htwo, hrun', ?_, ?_⟩
  · exact (hstays _ h' hrun').1 (hthree.isCancelled.2 trivial)
  · exact ((hsame _ h' hrun').2 hapart).2.1

theorem lt_of_signal? {f : Signal} (hf : h.signal? t = some f) : t < h.owners.length := by
  obtain ⟨_, ho, -⟩ := Option.bind_eq_some_iff.1 hf
  exact (List.getElem?_eq_some_iff.1 ho).1

/-- **Who waits for a handle is woken by its being cancelled**, and goes on waiting until then. -/
theorem resume_run {seen : Nat} (hrun : empty.run steps = some h)
    (hwait : h.wait t = some (.waiting seen)) (hmore : empty.run (steps ++ more) = some h') :
    (h'.resume t seen = some .over ↔ Reached (steps ++ more) t) ∧
    (h'.resume t seen = some (.waiting seen) ↔ ¬Reached (steps ++ more) t) := by
  have hr : Reflects steps h := reflects_empty.run hrun
  have hr' : Reflects (steps ++ more) h' := reflects_empty.run hmore
  obtain ⟨f, hf, hturn⟩ := Option.map_eq_some_iff.1 hwait
  have ht := lt_of_signal? hf
  obtain ⟨f₁, hf₁, -, hgiven⟩ := hr.signal ht
  obtain rfl : f = f₁ := Option.some.inj (hf.symm.trans hf₁)
  -- the signal had not been given at all when it was looked at
  have hseen : seen = 0 := by
    unfold Signal.wait at hturn
    split at hturn
    · cases hturn
    · rename_i hvalue
      cases hturn
      exact Decidable.not_not.1 fun hne => hvalue (hgiven.2 hne)
  obtain ⟨f', hf', hvalue', hgiven'⟩ := hr'.signal (Nat.lt_of_lt_of_le ht (hr.length_le hr'))
  rw [resume, hf', Option.map_some, ← hvalue', hseen, Signal.resume]
  cases hv : f'.value with
  | true =>
    rw [if_neg (by simpa using hgiven'.1 hv), Signal.wait, if_pos hv]
    simp
  | false =>
    have hzero : f'.given = 0 :=
      Decidable.not_not.1 fun hne => absurd (hgiven'.2 hne) (by rw [hv]; decide)
    rw [if_pos (by rw [hzero]; rfl)]
    simp

end PolicyForge.Handles
