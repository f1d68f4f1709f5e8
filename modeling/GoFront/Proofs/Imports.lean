import GoFront.Imports
import Mathlib.Data.Set.Card

/-!
# Clients that share the import directories

Clients look up import directories at the same time, and drop the entries while others look up. A look-up that misses
is two steps on the entries, and the entries are dropped part by part, so the steps of one call may stand between those
of another. Only the environment is replaced while nobody else is calling.

What happens is a list of events. Behind any of them the entries are those of the names that were looked up and not
dropped since, and each entry holds the source folders of the environment in force, so that no look-up answers anything
else.
-/

namespace GoFront

/-- What the folders are looked up for. -/
inductive ImportRequest
  /-- A file name. -/
  | name (name : Text)
  /-- The file at a path. -/
  | path (path : Path)

/-- The name under which the folders are kept. -/
def ImportRequest.key : ImportRequest → Text
  | .name text => text
  | .path p => ImportCache.nameOf p

namespace ImportCache

variable {c : ImportCache} {name : Text} {dirs : List Path}

/-- The file names with an entry. -/
def names (c : ImportCache) : List Text := c.entries.map Prod.fst

/-- Drops the entries of the names in a part of the table. -/
def drop (c : ImportCache) (part : Text → Bool) : ImportCache :=
  { c with entries := c.entries.filter fun e => !part e.1 }

lemma drop_all (c : ImportCache) : c.drop (fun _ => true) = c.clear := by simp [drop, clear]

lemma mem_names_drop {part : Text → Bool} : name ∈ (c.drop part).names ↔ name ∈ c.names ∧ part name = false := by
  simp only [names, drop, List.mem_map, List.mem_filter, Bool.not_eq_true']
  exact ⟨fun ⟨e, ⟨he, hpart⟩, h⟩ => ⟨⟨e, he, h⟩, h ▸ hpart⟩, fun ⟨⟨e, he, h⟩, hpart⟩ => ⟨e, ⟨he, h ▸ hpart⟩, h⟩⟩

lemma get?_eq_none_iff : c.get? name = none ↔ name ∉ c.names := by
  simp only [get?, List.lookup_eq_none_iff, names, List.mem_map, bne_iff_ne]
  constructor
  · rintro h ⟨e, he, hname⟩
    exact h e he hname.symm
  · exact fun h e he hname => h ⟨e, he, hname.symm⟩

/-- The folders that are kept for a name belong to it. -/
lemma mem_names_of_get? (h : c.get? name = some dirs) : name ∈ c.names :=
  Decidable.not_not.1 fun hno => Option.some_ne_none _ (h.symm.trans (get?_eq_none_iff.2 hno))

/-- The folders that are kept for a name stand in its entry. -/
lemma mem_entries_of_get? (h : c.get? name = some dirs) : (name, dirs) ∈ c.entries := by
  obtain ⟨front, rest, hentries, -⟩ := List.lookup_eq_some_iff.1 h
  exact hentries ▸ List.mem_append_right _ (.head _)

lemma insertIfNew_of_mem (h : name ∈ c.names) : c.insertIfNew name dirs = c :=
  if_pos (Option.isSome_iff_ne_none.2 fun hnone => get?_eq_none_iff.1 hnone h)

lemma insertIfNew_of_notMem (h : name ∉ c.names) :
    c.insertIfNew name dirs = { c with entries := (name, dirs) :: c.entries } :=
  if_neg (by simp [get?_eq_none_iff.2 h])

lemma mem_names_insertIfNew {other : Text} :
    other ∈ (c.insertIfNew name dirs).names ↔ name = other ∨ other ∈ c.names := by
  by_cases h : name ∈ c.names
  · rw [insertIfNew_of_mem h]
    exact ⟨.inr, fun hor => hor.elim (fun heq => heq ▸ h) id⟩
  · rw [insertIfNew_of_notMem h]
    exact List.mem_cons.trans (or_congr_left eq_comm)

lemma environment_insertIfNew : (c.insertIfNew name dirs).environment = c.environment := by
  unfold insertIfNew
  split <;> rfl

/-- There is one entry for each name, and it holds the source folders of the environment. -/
structure Coherent (c : ImportCache) : Prop where
  nodup : c.names.Nodup
  dirs_eq : ∀ e ∈ c.entries, e.2 = c.environment.sourceRoots

namespace Coherent

/-- What a coherent table answers. -/
lemma eq_of_get? (h : c.Coherent) (hget : c.get? name = some dirs) : dirs = c.environment.sourceRoots :=
  h.dirs_eq _ (mem_entries_of_get? hget)

lemma clear (c : ImportCache) : c.clear.Coherent := ⟨.nil, fun _ h => nomatch h⟩

lemma drop (h : c.Coherent) (part : Text → Bool) : (c.drop part).Coherent where
  nodup := h.nodup.sublist (List.filter_sublist.map _)
  dirs_eq e he := h.dirs_eq e (List.mem_of_mem_filter he)

lemma insertIfNew (h : c.Coherent) (name : Text) : (c.insertIfNew name c.environment.sourceRoots).Coherent := by
  by_cases hname : name ∈ c.names
  · rwa [insertIfNew_of_mem hname]
  · rw [insertIfNew_of_notMem hname]
    exact ⟨List.nodup_cons.2 ⟨hname, h.nodup⟩, List.forall_mem_cons.2 ⟨rfl, h.dirs_eq⟩⟩

end Coherent

end ImportCache

/-! ## Calls and events -/

/-- What a client has begun and not finished. -/
inductive ImportCall
  /-- A look-up that found no entry, and keeps one next. -/
  | lookup (r : ImportRequest)
  /-- Dropping all entries; `done` holds the names whose part of the table was gone through. -/
  | invalidate (done : Text → Bool)

/-- What the clients `ι` share, and what each of them is doing. -/
structure SharedImports (ι : Type) where
  /-- The entries. -/
  cache : ImportCache
  /-- The call of each client, if it is calling. -/
  calls : ι → Option ImportCall := fun _ => none

/-- The steps of the clients on what they share. -/
inductive ImportEvent (ι : Type)
  /-- A look-up finds an entry and returns its folders. -/
  | found (i : ι) (r : ImportRequest) (dirs : List Path)
  /-- A look-up finds no entry. -/
  | missed (i : ι) (r : ImportRequest)
  /-- A look-up that found no entry keeps one, unless there is one by now, and returns the folders in it. -/
  | kept (i : ι) (r : ImportRequest) (dirs : List Path)
  /-- A client begins to drop all entries. -/
  | invalidating (i : ι)
  /-- It drops the entries in a part of the table. -/
  | dropped (i : ι) (part : Text → Bool)
  /-- It has gone through the whole table. -/
  | invalidated (i : ι)
  /-- The environment is replaced, and all entries are dropped. -/
  | replaced (e : GoEnvironment)

namespace ImportEvent

variable {ι : Type}

/-- The request that a look-up ends on here, and the folders it returns. -/
def answer? : ImportEvent ι → Option (ImportRequest × List Path)
  | .found _ r dirs | .kept _ r dirs => some (r, dirs)
  | _ => none

/-- Whether a look-up of a name ends here. -/
def Completes (x : ImportEvent ι) (name : Text) : Prop := ∃ a ∈ x.answer?, a.1.key = name

/-- Whether the entry of a name is dropped here, if there is one. -/
def Clears (name : Text) : ImportEvent ι → Prop
  | .dropped _ part => part name = true
  | .replaced _ => True
  | _ => False

end ImportEvent

namespace SharedImports

open ImportEvent

variable {ι : Type} [DecidableEq ι]

/-- A client goes on to another call, or to none. -/
def setCall (w : SharedImports ι) (i : ι) (call : Option ImportCall) : ι → Option ImportCall :=
  Function.update w.calls i call

/-- What an event does. -/
inductive Step (w : SharedImports ι) : ImportEvent ι → SharedImports ι → Prop
  | found {i : ι} {r : ImportRequest} {dirs : List Path} (hidle : w.calls i = none)
    (hget : w.cache.get? r.key = some dirs) : Step w (.found i r dirs) w
  | missed {i : ι} {r : ImportRequest} (hidle : w.calls i = none) (hget : w.cache.get? r.key = none) :
    Step w (.missed i r) ⟨w.cache, w.setCall i (some (.lookup r))⟩
  | kept {i : ι} {r : ImportRequest} {dirs : List Path} (hcall : w.calls i = some (.lookup r))
    (hget : (w.cache.insertIfNew r.key w.cache.environment.sourceRoots).get? r.key = some dirs) :
    Step w (.kept i r dirs) ⟨w.cache.insertIfNew r.key w.cache.environment.sourceRoots, w.setCall i none⟩
  | invalidating {i : ι} (hidle : w.calls i = none) :
    Step w (.invalidating i) ⟨w.cache, w.setCall i (some (.invalidate fun _ => false))⟩
  | dropped {i : ι} {part done : Text → Bool} (hcall : w.calls i = some (.invalidate done)) :
    Step w (.dropped i part) ⟨w.cache.drop part, w.setCall i (some (.invalidate fun name => done name || part name))⟩
  | invalidated {i : ι} {done : Text → Bool} (hcall : w.calls i = some (.invalidate done))
    (hdone : ∀ name ∈ w.cache.names, done name = true) : Step w (.invalidated i) ⟨w.cache, w.setCall i none⟩
  | replaced {e : GoEnvironment} (hidle : ∀ i, w.calls i = none) :
    Step w (.replaced e) ⟨w.cache.setEnvironment e, w.calls⟩

/-- What a list of events does. -/
inductive Run (w : SharedImports ι) : List (ImportEvent ι) → SharedImports ι → Prop
  | nil : Run w [] w
  | snoc {xs : List (ImportEvent ι)} {x : ImportEvent ι} {w' w'' : SharedImports ι} (h : Run w xs w')
    (hstep : Step w' x w'') : Run w (xs ++ [x]) w''

/-- Nobody is calling, and there are no entries. -/
def new (e : GoEnvironment) : SharedImports ι where
  cache := { environment := e }

variable {w w' : SharedImports ι} {x : ImportEvent ι} {xs : List (ImportEvent ι)} {e : GoEnvironment} {i : ι}
  {name : Text}

/-! ## What has happened to the environment and to a name -/

/-- The environment in force behind some events: the last one that was set, or else the one at the beginning. -/
def inForce (e : GoEnvironment) : List (ImportEvent ι) → GoEnvironment
  | [] => e
  | .replaced e' :: xs => inForce e' xs
  | _ :: xs => inForce e xs

/-- A look-up of a name ended, and the entry of the name was not dropped since. -/
def Live (xs : List (ImportEvent ι)) (name : Text) : Prop :=
  ∃ (before : List (ImportEvent ι)) (x : ImportEvent ι) (after : List (ImportEvent ι)),
    xs = before ++ x :: after ∧ x.Completes name ∧ ∀ y ∈ after, ¬y.Clears name

omit [DecidableEq ι] in
lemma inForce_append (e : GoEnvironment) (xs ys : List (ImportEvent ι)) :
    inForce e (xs ++ ys) = inForce (inForce e xs) ys := by
  induction xs generalizing e with
  | nil => rfl
  | cons x xs ih => cases x <;> exact ih _

omit [DecidableEq ι] in
lemma not_live_nil : ¬Live ([] : List (ImportEvent ι)) name := by
  rintro ⟨before, x, after, h, -⟩
  simp at h

omit [DecidableEq ι] in
lemma live_concat : Live (xs ++ [x]) name ↔ x.Completes name ∨ Live xs name ∧ ¬x.Clears name := by
  constructor
  · rintro ⟨before, y, after, heq, hy, hafter⟩
    rcases List.eq_nil_or_concat after with rfl | ⟨after, z, rfl⟩
    · obtain ⟨-, hx⟩ := List.append_inj' heq rfl
      exact .inl (List.head_eq_of_cons_eq hx ▸ hy)
    · rw [List.concat_eq_append] at heq hafter
      rw [← List.cons_append, ← List.append_assoc] at heq
      obtain ⟨hxs, hx⟩ := List.append_inj' heq rfl
      obtain rfl := List.head_eq_of_cons_eq hx
      exact .inr ⟨⟨before, y, after, hxs, hy, fun u hu => hafter u (by simp [hu])⟩, hafter _ (by simp)⟩
  · rintro (hx | ⟨⟨before, y, after, rfl, hy, hafter⟩, hx⟩)
    · exact ⟨xs, x, [], rfl, hx, fun _ h => nomatch h⟩
    · refine ⟨before, y, after ++ [x], by simp, hy, fun u hu => ?_⟩
      rcases List.mem_append.1 hu with hu | hu
      · exact hafter u hu
      · exact List.mem_singleton.1 hu ▸ hx

/-! ## One event -/

namespace Step

/-- Only replacing the environment changes it. -/
lemma environment_eq (h : Step w x w') : w'.cache.environment = inForce w.cache.environment [x] := by
  cases h with
  | kept => exact ImportCache.environment_insertIfNew
  | found | missed | invalidating | dropped | invalidated | replaced => rfl

lemma coherent (h : Step w x w') (hw : w.cache.Coherent) : w'.cache.Coherent := by
  cases h with
  | found | missed | invalidating | invalidated => exact hw
  | kept => exact hw.insertIfNew _
  | dropped => exact hw.drop _
  | replaced => exact .clear _

/-- A name has an entry behind an event if a look-up of it ends there, or if it had one that is not dropped. -/
lemma mem_names_iff (h : Step w x w') :
    name ∈ w'.cache.names ↔ x.Completes name ∨ name ∈ w.cache.names ∧ ¬x.Clears name := by
  cases h with
  | found _ hget =>
    have hkey := ImportCache.mem_names_of_get? hget
    simp only [Completes, answer?, Clears, Option.mem_some_iff, exists_eq_left', not_false_eq_true, and_true]
    exact ⟨.inr, fun hor => hor.elim (fun heq => heq ▸ hkey) id⟩
  | kept => simp [Completes, answer?, Clears, ImportCache.mem_names_insertIfNew]
  | dropped => simp [Completes, answer?, Clears, ImportCache.mem_names_drop]
  | replaced => simp [Completes, answer?, Clears, ImportCache.setEnvironment, ImportCache.clear, ImportCache.names]
  | missed | invalidating | invalidated => simp [Completes, answer?, Clears]

/-- A look-up that ends returns the source folders of the environment. -/
lemma dirs_eq (h : Step w x w') (hw : w.cache.Coherent) {a : ImportRequest × List Path} (ha : a ∈ x.answer?) :
    a.2 = w.cache.environment.sourceRoots := by
  cases h with
  | found _ hget =>
    obtain rfl := Option.some.inj ha
    exact hw.eq_of_get? hget
  | kept _ hget =>
    obtain rfl := Option.some.inj ha
    rw [(hw.insertIfNew _).eq_of_get? hget, ImportCache.environment_insertIfNew]
  | missed | invalidating | dropped | invalidated | replaced => exact nomatch ha

end Step

/-! ## Many events -/

namespace Run

/-- A list of events is carried out one after the other. -/
lemma split {ys : List (ImportEvent ι)} {w'' : SharedImports ι} (h : Run w (xs ++ x :: ys) w'') :
    ∃ w₁ w₂, Run w xs w₁ ∧ Step w₁ x w₂ := by
  induction ys using List.reverseRecOn generalizing w'' with
  | nil =>
    generalize hzs : xs ++ [x] = zs at h
    cases h with
    | nil => simp at hzs
    | snoc h hstep =>
      obtain ⟨rfl, hx⟩ := List.append_inj' hzs rfl
      obtain rfl := List.head_eq_of_cons_eq hx
      exact ⟨_, _, h, hstep⟩
  | append_singleton ys y ih =>
    generalize hzs : xs ++ x :: (ys ++ [y]) = zs at h
    cases h with
    | nil => simp at hzs
    | snoc h hstep =>
      rw [← List.cons_append, ← List.append_assoc] at hzs
      obtain ⟨rfl, -⟩ := List.append_inj' hzs rfl
      exact ih h

lemma environment_eq (h : Run w xs w') : w'.cache.environment = inForce w.cache.environment xs := by
  induction h with
  | nil => rfl
  | snoc _ hstep ih => rw [hstep.environment_eq, ih, inForce_append]

lemma coherent (h : Run w xs w') (hw : w.cache.Coherent) : w'.cache.Coherent := by
  induction h with
  | nil => exact hw
  | snoc _ hstep ih => exact hstep.coherent ih

/-- The names with an entry are those that were looked up and not dropped since. -/
lemma mem_names_iff (h : Run (new e) xs w) : name ∈ w.cache.names ↔ Live xs name := by
  induction h with
  | nil => exact iff_of_false (fun h => nomatch h) not_live_nil
  | snoc _ hstep ih => rw [hstep.mem_names_iff, live_concat, ih]

end Run

/-! ## Single calls -/

lemma setCall_of_ne {j : ι} {call : Option ImportCall} (h : w.calls i ≠ w.calls j) :
    w.setCall j call i = w.calls i :=
  Function.update_of_ne (fun heq => h (congrArg w.calls heq)) _ _

/-- A client that drops all entries goes on with it until it is through, and is past a name only if it was before or
drops the entry of the name now. -/
lemma Step.invalidate (h : Step w x w') {done : Text → Bool} (hcall : w.calls i = some (.invalidate done))
    (hx : x ≠ .invalidated i) :
    ∃ done', w'.calls i = some (.invalidate done') ∧ ∀ name, done' name = true → done name = true ∨ x.Clears name := by
  have other {j : ι} {call : Option ImportCall} (hj : w.calls i ≠ w.calls j) :
      ∃ done', w.setCall j call i = some (.invalidate done') ∧
        ∀ name, done' name = true → done name = true ∨ x.Clears name :=
    ⟨done, (setCall_of_ne hj).trans hcall, fun _ => .inl⟩
  cases h with
  | found | replaced => exact ⟨done, hcall, fun _ => .inl⟩
  | missed hidle | invalidating hidle => exact other (by simp [hcall, hidle])
  | kept hcall' => exact other (by simp [hcall, hcall'])
  | @dropped j part done' hcall' =>
    by_cases hj : i = j
    · subst hj
      obtain rfl : done = done' := by simpa [hcall] using hcall'
      exact ⟨_, Function.update_self .., fun name h => (Bool.or_eq_true_iff.1 h).imp_right id⟩
    · exact ⟨done, (Function.update_of_ne hj _ _).trans hcall, fun _ => .inl⟩
  | @invalidated j _ _ _ =>
    have hj : i ≠ j := fun heq => hx (heq ▸ rfl)
    exact ⟨done, (Function.update_of_ne hj _ _).trans hcall, fun _ => .inl⟩

/-- While a client drops all entries, the entries that it is past are those of names that were looked up since it
began. -/
lemma Run.live_of_done (h : Run w xs w') (hcall : w.calls i = some (.invalidate fun _ => false))
    (hxs : .invalidated i ∉ xs) :
    ∃ done, w'.calls i = some (.invalidate done) ∧ ∀ name ∈ w'.cache.names, done name = true → Live xs name := by
  induction h with
  | nil => exact ⟨_, hcall, fun _ _ h => nomatch h⟩
  | @snoc xs x _ _ _ hstep ih =>
    obtain ⟨done, hdone, hlive⟩ := ih fun h => hxs (List.mem_append_left _ h)
    obtain ⟨done', hdone', hpast⟩ := hstep.invalidate hdone fun heq => hxs (by simp [heq])
    refine ⟨done', hdone', fun name hname hd => live_concat.2 ?_⟩
    refine (hstep.mem_names_iff.1 hname).imp_right fun ⟨hbefore, hkeep⟩ => ⟨hlive name hbefore ?_, hkeep⟩
    exact (hpast name hd).resolve_right hkeep

/-- When a client has dropped all entries, the entries there are belong to names that were looked up since it began. -/
theorem live_of_invalidated {w₁ w₂ w₃ : SharedImports ι} (hbegin : Step w (.invalidating i) w₁) (h : Run w₁ xs w₂)
    (hxs : .invalidated i ∉ xs) (hend : Step w₂ (.invalidated i) w₃) : ∀ name ∈ w₃.cache.names, Live xs name := by
  cases hbegin with
  | invalidating hidle =>
    cases hend with
    | invalidated hcall hdone =>
      obtain ⟨done, hdone', hlive⟩ := h.live_of_done (Function.update_self ..) hxs
      obtain rfl : _ = done := by simpa [hcall] using hdone'
      exact fun name hname => hlive name hname (hdone name hname)

/-- A look-up with which nobody interferes is the look-up in the table. -/
theorem run_lookup (r : ImportRequest) (hidle : w.calls i = none) :
    ∃ xs x, Run w (xs ++ [x]) ⟨(w.cache.lookup r.key).2, w.calls⟩ ∧ x.answer? = some (r, (w.cache.lookup r.key).1) := by
  rcases hget : w.cache.get? r.key with _ | dirs
  · -- Keeping the entry takes the client back to where it was.
    have hcalls : Function.update (w.setCall i (some (.lookup r))) i none = w.calls := by
      rw [setCall, Function.update_idem, ← hidle, Function.update_eq_self]
    have hkept : (w.cache.insertIfNew r.key w.cache.environment.sourceRoots).get? r.key =
        some w.cache.environment.sourceRoots := by
      rw [ImportCache.get?_insertIfNew, if_pos rfl, hget, Option.getD_none]
    have hlookup : w.cache.lookup r.key =
        (w.cache.environment.sourceRoots, w.cache.insertIfNew r.key w.cache.environment.sourceRoots) := by
      simp [ImportCache.lookup, hget, hkept]
    have hmissed : Run w [.missed i r] ⟨w.cache, w.setCall i (some (.lookup r))⟩ := Run.nil.snoc (.missed hidle hget)
    have hrun := hmissed.snoc (.kept (Function.update_self ..) hkept)
    refine ⟨[.missed i r], .kept i r w.cache.environment.sourceRoots, ?_, by rw [hlookup]; rfl⟩
    rw [hlookup, ← hcalls]
    exact hrun
  · have hlookup : w.cache.lookup r.key = (dirs, w.cache) := by simp [ImportCache.lookup, hget]
    refine ⟨[], .found i r dirs, ?_, by rw [hlookup]; rfl⟩
    rw [hlookup]
    exact Run.nil.snoc (.found hidle hget)

/-- Dropping all entries at once clears the table. -/
theorem run_clear (hidle : w.calls i = none) :
    Run w [.invalidating i, .dropped i fun _ => true, .invalidated i] ⟨w.cache.clear, w.calls⟩ := by
  have hcalls (call call' : Option ImportCall) :
      Function.update (Function.update (w.setCall i call) i call') i none = w.calls := by
    rw [setCall, Function.update_idem, Function.update_idem, ← hidle, Function.update_eq_self]
  have hbegin : Run w [.invalidating i] ⟨w.cache, w.setCall i (some (.invalidate fun _ => false))⟩ :=
    Run.nil.snoc (.invalidating hidle)
  have hdropped := hbegin.snoc (x := .dropped i fun _ => true) (.dropped (Function.update_self ..))
  have hend := hdropped.snoc (.invalidated (Function.update_self ..) fun _ _ => rfl)
  rw [ImportCache.drop_all] at hend
  exact hcalls _ _ ▸ hend

/-! ## Any clients -/

/-- However the calls of any clients interleave, each look-up that ends returns the source folders of the environment
in force; a look-up can always begin, and one that found no entry can always end; and the number of entries when nobody
is calling is the number of names that were looked up and not dropped since. -/
theorem imports_coherent (h : Run (new e) xs w) :
    (∀ before x after, xs = before ++ x :: after → ∀ a ∈ x.answer?, a.2 = (inForce e before).sourceRoots) ∧
      (∀ i r, w.calls i = none → (∃ w', Step w (.found i r (inForce e xs).sourceRoots) w') ∨
        ∃ w', Step w (.missed i r) w') ∧
      (∀ i r, w.calls i = some (.lookup r) → ∃ w', Step w (.kept i r (inForce e xs).sourceRoots) w') ∧
      ((∀ i, w.calls i = none) → {name | Live xs name}.encard = w.cache.size) := by
  have hnew : (new e : SharedImports ι).cache.Coherent := ImportCache.Coherent.clear { environment := e }
  have hw := h.coherent hnew
  have hforce : w.cache.environment = inForce e xs := h.environment_eq
  refine ⟨?_, fun i r hidle => ?_, fun i r hcall => ?_, fun _ => ?_⟩
  · rintro before x after rfl a ha
    obtain ⟨w₁, w₂, hbefore, hstep⟩ := h.split
    rw [hstep.dirs_eq (hbefore.coherent hnew) ha, hbefore.environment_eq]
    rfl
  · rcases hget : w.cache.get? r.key with _ | dirs
    · exact .inr ⟨_, .missed hidle hget⟩
    · obtain rfl : dirs = (inForce e xs).sourceRoots := hforce ▸ hw.eq_of_get? hget
      exact .inl ⟨_, .found hidle hget⟩
  · have hmem : r.key ∈ (w.cache.insertIfNew r.key w.cache.environment.sourceRoots).names :=
      ImportCache.mem_names_insertIfNew.2 (.inl rfl)
    obtain ⟨dirs, hget⟩ := Option.ne_none_iff_exists'.1 fun hnone => ImportCache.get?_eq_none_iff.1 hnone hmem
    obtain rfl : dirs = (inForce e xs).sourceRoots := by
      rw [(hw.insertIfNew r.key).eq_of_get? hget, ImportCache.environment_insertIfNew, hforce]
    exact ⟨_, .kept hcall hget⟩
  · have hset : {name | Live xs name} = (w.cache.names.toFinset : Set Text) := by
      ext name
      rw [List.coe_toFinset, Set.mem_ofPred_eq, Set.mem_ofPred_eq, h.mem_names_iff]
    rw [hset, Set.encard_coe_eq_coe_finsetCard, List.toFinset_card_of_nodup hw.nodup, ImportCache.names,
      List.length_map, ImportCache.size]

/-- Two clients find no entry for one name while a third drops all entries between their two look-ups: one entry is
left. -/
theorem imports_coherent_overlapping :
    let roots : List Path := ["/sdk/src".toList, "/go/src".toList]
    let xs : List (ImportEvent Nat) :=
      [.missed 0 (.name "a.go".toList), .invalidating 1, .missed 2 (.path "cmd/a.go".toList),
        .kept 0 (.name "a.go".toList) roots, .dropped 1 fun _ => true, .kept 2 (.path "cmd/a.go".toList) roots,
        .invalidated 1]
    ∃ w, Run (new ⟨some "/sdk".toList, ["/go".toList]⟩) xs w ∧ (∀ i, w.calls i = none) ∧
      {name | Live xs name}.encard = 1 := by
  intro roots xs
  have h₁ := (Run.nil (w := new ⟨some "/sdk".toList, ["/go".toList]⟩)).snoc
    (.missed (i := 0) (r := .name "a.go".toList) rfl rfl)
  have h₂ := h₁.snoc (.invalidating (i := 1) rfl)
  have h₃ := h₂.snoc (.missed (i := 2) (r := .path "cmd/a.go".toList) rfl rfl)
  have h₄ := h₃.snoc (x := .kept 0 (.name "a.go".toList) roots) (.kept rfl rfl)
  have h₅ := h₄.snoc (x := .dropped 1 fun _ => true) (.dropped rfl)
  have h₆ := h₅.snoc (x := .kept 2 (.path "cmd/a.go".toList) roots) (.kept rfl rfl)
  obtain ⟨w, h, hidle, hsize⟩ : ∃ w, Run (new ⟨some "/sdk".toList, ["/go".toList]⟩) xs w ∧ (∀ i, w.calls i = none) ∧
      w.cache.size = 1 :=
    ⟨_, h₆.snoc (.invalidated (i := 1) rfl fun _ _ => rfl), fun i => by rcases i with _ | _ | _ | i <;> rfl, rfl⟩
  have hcount := (imports_coherent h).2.2.2 hidle
  rw [hsize] at hcount
  exact ⟨w, h, hidle, hcount⟩

end SharedImports

end GoFront
