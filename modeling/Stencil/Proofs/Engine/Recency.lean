import Mathlib.Data.List.Dedup
import Mathlib.Data.List.DropRight
import Mathlib.Data.List.Forall2
import Mathlib.Data.Set.Function
import Stencil.Proofs.Engine.Call

/-! # The templates that an engine keeps

What the cache of an engine holds after a run of calls, and what each call does.

* `Engine.uses` are the sources that were used successfully since the cache was last cleared, and
  `Engine.recent` are the last of them that differ, as many as the cache may hold.
* `Engine.Holds` says that a cache holds the templates of certain sources, in order;
  `Holds.use` is the step, and `holds_run` is the run.
* `Engine.run_recent` is the result: after every run the cache holds the recent sources, and each call
  answers with the template that is stored, or with a new one.

All this holds for any decoder of files. -/

namespace Stencil

/-! ## The last items of a row that differ -/

section Recency

variable {α : Type} [DecidableEq α]

/-- One more item is the last one, and is not left where it was before. -/
theorem dedup_concat (us : List α) (s : α) : (us ++ [s]).dedup = us.dedup.filter (· != s) ++ [s] := by
  induction us with
  | nil => simp
  | cons u us ih =>
      rw [List.cons_append, List.dedup_cons, List.dedup_cons, ih]
      by_cases hmem : u ∈ us
      · rw [if_pos hmem, if_pos (List.mem_append_left _ hmem)]
      · rw [if_neg hmem]
        by_cases hu : u = s
        · subst hu
          simp
        · rw [if_neg (by simp [hmem, hu])]
          simp [hu]

/-- The first items but one are found among one more of the first items. -/
theorem take_filter_ne {l : List α} (h : l.Nodup) (s : α) (n : Nat) :
    (l.filter (· != s)).take n = ((l.take (n + 1)).filter (· != s)).take n := by
  induction l generalizing n with
  | nil => simp
  | cons u l ih =>
      obtain ⟨hu, hl⟩ := List.nodup_cons.mp h
      by_cases hus : u = s
      · subst hus
        -- it does not occur again, so that nothing else is left out
        have hall : ∀ v ∈ l, (v != u) = true := by
          intro v hv
          rw [bne_iff_ne]
          rintro rfl
          exact hu hv
        have htake : ∀ v ∈ l.take n, (v != u) = true := fun v hv => hall v (List.mem_of_mem_take hv)
        rw [List.take_succ_cons, List.filter_cons_of_neg (by simp), List.filter_cons_of_neg (by simp),
          List.filter_eq_self.mpr hall, List.filter_eq_self.mpr htake, List.take_take, Nat.min_self]
      · cases n with
        | zero => simp
        | succ n =>
            rw [List.take_succ_cons, List.filter_cons_of_pos (by simpa using hus),
              List.filter_cons_of_pos (by simpa using hus), List.take_succ_cons, List.take_succ_cons,
              ih hl]

/-- **The last items that differ**, after one more: those before it tell which they are. -/
theorem rtake_dedup_concat (us : List α) (s : α) (n : Nat) :
    (us ++ [s]).dedup.rtake n = ((us.dedup.rtake n).filter (· != s) ++ [s]).rtake n := by
  rw [dedup_concat]
  cases n with
  | zero => rw [List.rtake_zero, List.rtake_zero]
  | succ n =>
      have hnodup : us.dedup.reverse.Nodup := List.nodup_reverse.mpr (List.nodup_dedup us)
      rw [List.rtake_concat_succ, List.rtake_concat_succ, List.rtake_eq_reverse_take_reverse,
        List.rtake_eq_reverse_take_reverse, List.rtake_eq_reverse_take_reverse, ← List.filter_reverse,
        ← List.filter_reverse, List.reverse_reverse, take_filter_ne hnodup]

end Recency

namespace Engine

/-! ## Uses -/

variable {decode : Text.Decoder} {config : Config} {e : Engine} {call : Call} {source : String}

/-- The source that a call **uses successfully**: it compiles, whatever becomes of it afterwards. -/
def Call.use? (decode : Text.Decoder) (config : Config) (call : Call) : Option String :=
  (call.source? decode config.encoding).filter fun source => (Template.compile source config).isOk

/-- The **sources used successfully** since the cache was last cleared, from the first to the last. -/
def uses (decode : Text.Decoder) (config : Config) (calls : List Call) : List String :=
  (calls.rtakeWhile fun call => !call.isClear).filterMap (Call.use? decode config)

/-- The **recent sources**: those used last that differ, as many as the cache may hold, by their last
use. -/
def recent (config : Config) (us : List String) : List String := us.dedup.rtake config.cacheSize.toNat

/-! ## What a cache holds -/

/-- Whether an entry of a cache **stores a source**: its key, and a template compiled from it. -/
def Stores (config : Config) (source : String) (entry : String × Compiled) : Prop :=
  entry.1 = key source ∧ Template.compile source config = .ok entry.2.template

/-- Whether a cache **holds sources**, one entry for each, in order. -/
def Holds (config : Config) : List String → List (String × Compiled) → Prop :=
  List.Forall₂ (Stores config)

variable {sources : List String} {cache : List (String × Compiled)}

/-- Every entry stores one of the sources. -/
theorem Holds.exists_source (h : Holds config sources cache) {entry : String × Compiled}
    (hmem : entry ∈ cache) : ∃ s ∈ sources, Stores config s entry := by
  induction h with
  | nil => cases hmem
  | @cons s _ sources _ hstores _ ih =>
      rcases List.mem_cons.mp hmem with rfl | hmem
      · exact ⟨s, List.mem_cons_self, hstores⟩
      · obtain ⟨t, ht, hstores⟩ := ih hmem
        exact ⟨t, List.mem_cons_of_mem _ ht, hstores⟩

/-- Every source is stored in one of the entries. -/
theorem Holds.exists_entry (h : Holds config sources cache) (hmem : source ∈ sources) :
    ∃ entry ∈ cache, Stores config source entry := by
  induction h with
  | nil => cases hmem
  | @cons _ entry _ cache hstores _ ih =>
      rcases List.mem_cons.mp hmem with rfl | hmem
      · exact ⟨entry, List.mem_cons_self, hstores⟩
      · obtain ⟨other, hother, hstores⟩ := ih hmem
        exact ⟨other, List.mem_cons_of_mem _ hother, hstores⟩

/-- A source that is held is found. -/
theorem Holds.find_some (h : Holds config sources cache)
    (hkey : ∀ t ∈ sources, key t = key source → t = source) (hmem : source ∈ sources) :
    ∃ c, cache.find? (fun entry => entry.1 == key source) = some (key source, c) ∧
      (key source, c) ∈ cache ∧ Stores config source (key source, c) := by
  obtain ⟨entry, hentry, hstores⟩ := h.exists_entry hmem
  have hsome : (cache.find? fun entry => entry.1 == key source).isSome = true :=
    List.find?_isSome.mpr ⟨entry, hentry, by simpa using hstores.1⟩
  obtain ⟨⟨k, c⟩, hfind⟩ := Option.isSome_iff_exists.mp hsome
  obtain rfl : k = key source := by simpa using List.find?_some hfind
  have hin := List.mem_of_find?_eq_some hfind
  -- the source that the entry stores has the same key, and so is the same
  obtain ⟨t, ht, hfound⟩ := h.exists_source hin
  rw [hkey t ht hfound.1.symm] at hfound
  exact ⟨c, hfind, hin, hfound⟩

/-- A source that is not held is not found. -/
theorem Holds.find_none (h : Holds config sources cache)
    (hkey : ∀ t ∈ sources, key t = key source → t = source) (hmem : source ∉ sources) :
    cache.find? (fun entry => entry.1 == key source) = none := by
  refine List.find?_eq_none.mpr fun entry hentry hbeq => ?_
  obtain ⟨t, ht, hstores⟩ := h.exists_source hentry
  have hk : key t = key source := by
    rw [← hstores.1]
    simpa using hbeq
  exact hmem (hkey t ht hk ▸ ht)

/-- Without one of its sources a cache holds the others. -/
theorem Holds.filter (h : Holds config sources cache)
    (hkey : ∀ t ∈ sources, key t = key source → t = source) :
    Holds config (sources.filter (· != source)) (cache.filter fun entry => entry.1 != key source) := by
  induction h with
  | nil => exact .nil
  | @cons t entry sources cache hstores _ ih =>
      have hrest := ih fun u hu => hkey u (List.mem_cons_of_mem _ hu)
      by_cases ht : t = source
      · rw [List.filter_cons_of_neg (by simpa using ht),
          List.filter_cons_of_neg (by simp [hstores.1, ht])]
        exact hrest
      · have hk : key t ≠ key source := fun hk => ht (hkey t List.mem_cons_self hk)
        rw [List.filter_cons_of_pos (by simpa using ht),
          List.filter_cons_of_pos (by simpa [hstores.1] using hk)]
        exact .cons hstores hrest

/-- **A source that is used** is held as the newest. -/
theorem Holds.use (h : Holds config sources cache)
    (hkey : ∀ t ∈ sources, key t = key source → t = source) {c : Compiled}
    (hc : Template.compile source config = .ok c.template) :
    Holds config (sources.filter (· != source) ++ [source]) (use (key source) c cache) :=
  List.rel_append (h.filter hkey) (.cons ⟨rfl, hc⟩ .nil)

/-- A cache that is trimmed holds the newest sources. -/
theorem Holds.trim (h : Holds config sources cache) (n : Nat) :
    Holds config (sources.rtake n) (trim n cache) := by
  rw [List.rtake, List.Forall₂.length_eq h]
  exact List.forall₂_drop _ h

/-- A cache that is not too long is not trimmed. -/
theorem trim_eq_self {n : Nat} (h : cache.length ≤ n) : Engine.trim n cache = cache := by
  rw [Engine.trim, Nat.sub_eq_zero_of_le h, List.drop_zero]

/-! ## Recent sources -/

variable {us : List String}

/-- There are no more recent sources than the cache may hold. -/
theorem length_recent_le (config : Config) (us : List String) :
    (recent config us).length ≤ config.cacheSize.toNat := by
  rw [recent, List.rtake, List.length_drop]
  omega

/-- Without uses there are no recent sources. -/
theorem recent_nil (config : Config) : recent config [] = [] := by
  rw [recent, List.dedup_nil, List.rtake_nil]

/-- Recent sources were used. -/
theorem mem_of_mem_recent (h : source ∈ recent config us) : source ∈ us := by
  rw [recent, List.rtake] at h
  exact List.mem_dedup.mp (List.mem_of_mem_drop h)

/-- Whether an engine **keeps the recent sources** of certain uses. -/
structure Keeps (config : Config) (us : List String) (e : Engine) : Prop where
  /-- It has the configuration. -/
  configured : e.config = config
  /-- Its cache holds the recent sources. -/
  held : Holds config (recent config us) e.cache
  /-- The templates in the cache were compiled before. -/
  old : ∀ entry ∈ e.cache, entry.2.serial < e.serials

/-- The cache has no more entries than it may have. -/
theorem Keeps.length_le (h : Keeps config us e) : e.cache.length ≤ config.cacheSize.toNat := by
  rw [← List.Forall₂.length_eq h.held]
  exact length_recent_le config us

/-- **A recent source is found**, and becomes the newest. -/
theorem Keeps.hit (h : Keeps config us e) (hkey : ∀ t ∈ us, key t = key source → t = source)
    (hmem : source ∈ recent config us) :
    ∃ c, (key source, c) ∈ e.cache ∧ Template.compile source config = .ok c.template ∧
      (e.compile source).result = .ok c ∧
      (e.compile source).engine = { e with cache := use (key source) c e.cache } := by
  have hsize : e.config.cacheSize ≠ 0 := by
    intro hzero
    have hlength := length_recent_le config us
    rw [← h.configured, hzero] at hlength
    exact absurd (List.length_pos_of_mem hmem) (Nat.not_lt.mpr (by rwa [← h.configured]))
  obtain ⟨c, hfind, hin, hstores⟩ :=
    h.held.find_some (fun t ht => hkey t (mem_of_mem_recent ht)) hmem
  obtain ⟨hresult, hengine⟩ := compile_of_find_some hsize hfind
  exact ⟨c, hin, hstores.2, hresult, hengine⟩

/-- **A source that is not recent is compiled anew.** -/
theorem Keeps.miss (h : Keeps config us e) (hkey : ∀ t ∈ us, key t = key source → t = source)
    (hmem : source ∉ recent config us) {t : Template} (ht : Template.compile source config = .ok t) :
    (e.compile source).result = .ok ⟨e.serials, t⟩ ∧
      (e.compile source).engine = { e with
        cache := trim config.cacheSize.toNat (use (key source) ⟨e.serials, t⟩ e.cache)
        serials := e.serials + 1 } := by
  rw [← h.configured] at ht
  by_cases hzero : e.config.cacheSize = 0
  · -- the cache is empty, and stays so
    have hcache : e.cache = [] := by
      have hlength := h.length_le
      rw [← h.configured, hzero] at hlength
      exact List.length_eq_zero_iff.mp (Nat.le_zero.mp hlength)
    rw [← h.configured, hzero]
    simp [compile_of_eq_zero hzero, compileAnew, ht, hcache, trim]
  · have hfind := h.held.find_none (fun t ht => hkey t (mem_of_mem_recent ht)) hmem
    rw [← h.configured]
    exact compile_of_find_none hzero hfind ht

/-- **A source that does not compile** leaves the engine as it is. -/
theorem Keeps.fail (h : Keeps config us e) (hkey : ∀ t ∈ us, key t = key source → t = source)
    {err : CompileError} (herr : Template.compile source config = .error err) :
    (e.compile source).result = .error (.compile err) ∧ (e.compile source).engine = e := by
  have hmem : source ∉ recent config us := by
    intro hmem
    obtain ⟨entry, -, hstores⟩ := h.held.exists_entry hmem
    have hok := hstores.2
    rw [herr] at hok
    cases hok
  rw [← h.configured] at herr
  exact compile_of_error (h.held.find_none (fun t ht => hkey t (mem_of_mem_recent ht)) hmem) herr

/-- **After a source was used the cache holds the recent sources**, the source as the newest of them. -/
theorem Keeps.use (h : Keeps config us e) (hkey : ∀ t ∈ us, key t = key source → t = source)
    {c : Compiled} (hc : Template.compile source config = .ok c.template) :
    Holds config (recent config (us ++ [source]))
      (trim config.cacheSize.toNat (Engine.use (key source) c e.cache)) := by
  rw [recent, rtake_dedup_concat]
  exact (h.held.use (fun t ht => hkey t (mem_of_mem_recent ht)) hc).trim _

/-- The entries of a cache in which a template was used were in it before, or are this one. -/
theorem mem_of_mem_use {k : String} {c : Compiled} {entry : String × Compiled}
    (h : entry ∈ Engine.use k c cache) : entry ∈ cache ∨ entry = (k, c) := by
  rw [Engine.use, List.mem_append, List.mem_singleton] at h
  exact h.imp_left List.mem_of_mem_filter

/-- A template that is found takes no more room. -/
theorem length_use_le {k : String} {c : Compiled} (h : (k, c) ∈ cache) :
    (Engine.use k c cache).length ≤ cache.length := by
  have hlt : (cache.filter fun entry => entry.1 != k).length < cache.length :=
    List.length_filter_lt_length_iff_exists.mpr ⟨(k, c), h, by simp⟩
  rw [Engine.use, List.length_append, List.length_singleton]
  exact hlt

/-- **The step**: compiling a source keeps the recent sources, with the source as the newest. -/
theorem Keeps.compile (h : Keeps config us e) (hkey : ∀ t ∈ us, key t = key source → t = source)
    {t : Template} (ht : Template.compile source config = .ok t) :
    Keeps config (us ++ [source]) (e.compile source).engine ∧
      ∀ c, (e.compile source).result = .ok c → c.serial < (e.compile source).engine.serials := by
  by_cases hmem : source ∈ recent config us
  · -- the template is in the cache already, so that there is nothing to trim
    obtain ⟨c, hin, hc, hresult, hengine⟩ := h.hit hkey hmem
    have hheld := h.use hkey hc
    rw [trim_eq_self (Nat.le_trans (length_use_le hin) h.length_le)] at hheld
    rw [hengine]
    refine ⟨⟨h.configured, hheld, fun entry hentry => ?_⟩, fun d hd => ?_⟩
    · rcases mem_of_mem_use hentry with hold | rfl
      · exact h.old entry hold
      · exact h.old _ hin
    · rw [hresult] at hd
      obtain rfl := Except.ok.inj hd
      exact h.old _ hin
  · obtain ⟨hresult, hengine⟩ := h.miss hkey hmem ht
    have hheld := h.use (c := ⟨e.serials, t⟩) hkey ht
    rw [hengine]
    refine ⟨⟨h.configured, hheld, fun entry hentry => ?_⟩, fun d hd => ?_⟩
    -- the new template has the number that was next, and all others have smaller ones
    · rcases mem_of_mem_use (List.mem_of_mem_drop hentry) with hold | rfl
      · exact Nat.lt_succ_of_lt (h.old entry hold)
      · exact Nat.lt_succ_self _
    · rw [hresult] at hd
      obtain rfl := Except.ok.inj hd
      exact Nat.lt_succ_self _

/-! ## Runs -/

/-- A run, and one more call. -/
theorem run_concat (decode : Text.Decoder) (e : Engine) (calls : List Call) (call : Call) :
    e.run decode (calls ++ [call]) = (e.run decode calls).after decode call := by
  rw [run, List.foldl_append]
  rfl

/-- Runs count compilations upwards. -/
theorem serials_le_run (decode : Text.Decoder) (e : Engine) (calls : List Call) :
    e.serials ≤ (e.run decode calls).serials := by
  induction calls using List.reverseRecOn with
  | nil => exact Nat.le_refl _
  | append_singleton calls call ih =>
      rw [run_concat]
      exact Nat.le_trans ih (serials_le_after decode _ call)

/-- The uses of a run, and one more call that does not clear the cache. -/
theorem uses_concat (decode : Text.Decoder) (config : Config) (calls : List Call)
    (h : call.isClear = false) :
    uses decode config (calls ++ [call]) =
      uses decode config calls ++ (call.use? decode config).toList := by
  rw [uses, List.rtakeWhile_concat_pos _ _ _ (by rw [h]; rfl), List.filterMap_append, uses]
  rfl

/-- Nothing was used since the cache was cleared. -/
theorem uses_clear (decode : Text.Decoder) (config : Config) (calls : List Call)
    (h : call.isClear = true) : uses decode config (calls ++ [call]) = [] := by
  rw [uses, List.rtakeWhile_concat_neg _ _ _ (by rw [h]; decide)]
  rfl

/-- A source that is used successfully compiles. -/
theorem use?_eq_some_iff :
    call.use? decode config = some source ↔
      call.source? decode config.encoding = some source ∧
        ∃ t, Template.compile source config = .ok t := by
  rw [Call.use?, Option.filter_eq_some_iff]
  refine and_congr_right fun _ => ?_
  cases Template.compile source config with
  | ok t => simp [Except.isOk, Except.toBool]
  | error err => simp [Except.isOk, Except.toBool]

/-- A call that uses no source successfully comes to none, or to one that does not compile. -/
theorem use?_eq_none_iff :
    call.use? decode config = none ↔ ∀ source t, call.source? decode config.encoding = some source →
      Template.compile source config ≠ .ok t := by
  rw [Option.eq_none_iff_forall_ne_some]
  constructor
  · intro h source t hsource ht
    exact h source (use?_eq_some_iff.mpr ⟨hsource, t, ht⟩)
  · intro h source huse
    obtain ⟨hsource, t, ht⟩ := use?_eq_some_iff.mp huse
    exact h source t hsource ht

/-- The **sources of calls**. -/
def sourcesOf (decode : Text.Decoder) (config : Config) (calls : List Call) : Set String :=
  { source | ∃ call ∈ calls, call.source? decode config.encoding = some source }

/-- The sources that were used are those of calls. -/
theorem mem_sourcesOf_of_mem_uses {calls : List Call} (h : source ∈ uses decode config calls) :
    source ∈ sourcesOf decode config calls := by
  obtain ⟨call, hcall, huse⟩ := List.mem_filterMap.mp h
  exact ⟨call, (List.rtakeWhile_suffix _ _).subset hcall, (use?_eq_some_iff.mp huse).1⟩

/-- A source of the next call has a key of its own among the sources that were used. -/
theorem key_of_mem_uses {calls : List Call}
    (hkeys : Set.InjOn key (sourcesOf decode config (calls ++ [call])))
    (hsource : call.source? decode config.encoding = some source) :
    ∀ t ∈ uses decode config calls, key t = key source → t = source := by
  intro t ht hkey
  obtain ⟨other, hother, ht⟩ := mem_sourcesOf_of_mem_uses ht
  exact hkeys ⟨other, List.mem_append_left _ hother, ht⟩ ⟨call, by simp, hsource⟩ hkey

/-- **The step**: a call keeps the recent sources. -/
theorem Keeps.after {calls : List Call} (h : Keeps config (uses decode config calls) e)
    (hkeys : Set.InjOn key (sourcesOf decode config (calls ++ [call]))) :
    Keeps config (uses decode config (calls ++ [call])) (e.after decode call) ∧
      ∀ c, e.handed decode call = some (.ok c) → c.serial < (e.after decode call).serials := by
  cases hclear : call.isClear with
  | true =>
      cases call with
      | clear =>
          rw [uses_clear decode config calls hclear]
          refine ⟨⟨h.configured, ?_, fun entry hentry => by cases hentry⟩, fun c hc => by cases hc⟩
          rw [recent_nil]
          exact .nil
      | _ => cases hclear
  | false =>
      rw [uses_concat decode config calls hclear]
      cases hsource : call.source? decode config.encoding with
      | none =>
          -- nothing is used, and nothing happens
          have huse : call.use? decode config = none :=
            use?_eq_none_iff.mpr fun source t h => by rw [hsource] at h; cases h
          rw [← h.configured] at hsource
          obtain ⟨⟨err, herr⟩, hafter⟩ := of_no_source hsource hclear
          rw [huse, hafter, Option.toList_none, List.append_nil]
          refine ⟨h, fun c hc => ?_⟩
          rw [herr] at hc
          cases hc
      | some source =>
          have hkey := key_of_mem_uses hkeys hsource
          obtain ⟨hhanded, hafter⟩ := of_source (e := e) (by rw [h.configured]; exact hsource)
          rw [hhanded, hafter]
          cases ht : Template.compile source config with
          | ok t =>
              rw [use?_eq_some_iff.mpr ⟨hsource, t, ht⟩]
              obtain ⟨hkeeps, hold⟩ := h.compile hkey ht
              exact ⟨hkeeps, fun c hc => hold c (Option.some.inj hc)⟩
          | error err =>
              have huse : call.use? decode config = none := by
                refine use?_eq_none_iff.mpr fun s t hs hok => ?_
                rw [hsource] at hs
                obtain rfl := Option.some.inj hs
                rw [ht] at hok
                cases hok
              obtain ⟨hresult, hengine⟩ := h.fail hkey ht
              rw [huse, hengine, hresult, Option.toList_none, List.append_nil]
              exact ⟨h, fun c hc => by cases hc⟩

/-- A new **engine**. -/
def start (config : Config) : Engine := ⟨config, [], 0⟩

/-- The first of some calls have no other sources. -/
theorem sourcesOf_mono (decode : Text.Decoder) (config : Config) {calls calls' : List Call}
    (h : calls ⊆ calls') : sourcesOf decode config calls ⊆ sourcesOf decode config calls' := by
  rintro source ⟨call, hcall, hsource⟩
  exact ⟨call, h hcall, hsource⟩

/-- **The run**: after any calls an engine keeps the recent sources. -/
theorem keeps_run (calls : List Call) (hkeys : Set.InjOn key (sourcesOf decode config calls)) :
    Keeps config (uses decode config calls) ((start config).run decode calls) := by
  induction calls using List.reverseRecOn with
  | nil =>
      refine ⟨rfl, ?_, fun entry hentry => by cases hentry⟩
      show Holds config (recent config []) []
      rw [recent_nil]
      exact .nil
  | append_singleton calls call ih =>
      have hbefore := hkeys.mono (sourcesOf_mono decode config (List.subset_append_left calls [call]))
      rw [run_concat]
      exact ((ih hbefore).after hkeys).1

/-- The templates that calls got were compiled before. -/
theorem serial_lt_of_handed {earlier later : List Call} {prior : Call}
    (hkeys : Set.InjOn key (sourcesOf decode config (earlier ++ prior :: later))) {c : Compiled}
    (hc : ((start config).run decode earlier).handed decode prior = some (.ok c)) :
    c.serial < ((start config).run decode (earlier ++ prior :: later)).serials := by
  -- the number is below the count right after the call, and from there on the count only grows
  rw [List.append_cons] at hkeys
  have hprior := hkeys.mono
    (sourcesOf_mono decode config (List.subset_append_left (earlier ++ [prior]) later))
  have hearlier := hprior.mono (sourcesOf_mono decode config (List.subset_append_left earlier [prior]))
  have hlt := ((keeps_run earlier hearlier).after hprior).2 c hc
  rw [← run_concat] at hlt
  rw [List.append_cons, run, List.foldl_append]
  exact Nat.lt_of_lt_of_le hlt (serials_le_run decode _ later)

/-! ## What a call does -/

/-- **What a call does** on an engine, after certain uses. -/
structure Serves (decode : Text.Decoder) (config : Config) (us : List String) (e : Engine)
    (call : Call) : Prop where
  /-- A call on a recent source gets the template that is stored for it, which becomes the newest. -/
  hit : ∀ source, call.source? decode config.encoding = some source → source ∈ recent config us →
    ∃ c, (key source, c) ∈ e.cache ∧ e.handed decode call = some (.ok c) ∧
      (e.after decode call).cache =
        e.cache.filter (fun entry => entry.1 != key source) ++ [(key source, c)]
  /-- A call on any other source compiles it anew. -/
  miss : ∀ source t, call.source? decode config.encoding = some source → source ∉ recent config us →
    Template.compile source config = .ok t → e.handed decode call = some (.ok ⟨e.serials, t⟩)
  /-- A call on a source that does not compile fails, and changes nothing. -/
  fail : ∀ source err, call.source? decode config.encoding = some source →
    Template.compile source config = .error err →
    e.handed decode call = some (.error (.compile err)) ∧ e.after decode call = e
  /-- A call on a file that is missing or no text fails, and changes nothing. -/
  unread : ∀ path entry, call = .compileFile path entry → call.source? decode config.encoding = none →
    (∃ err, e.handed decode call = some (.error err)) ∧ e.after decode call = e
  /-- A call that renders a source does so with the template it gets. What becomes of the rendering does
  not matter to the engine. -/
  render : ∀ source data, call = .render source data →
    (e.render source data).result = (do
      let c ← (e.compile source).result
      (e.renderTemplate c.template data).result) ∧
    e.after decode call = e.after decode (.compile source)

/-- An engine that keeps the recent sources serves every call. -/
theorem Keeps.serves {calls : List Call} (h : Keeps config (uses decode config calls) e)
    (hkeys : Set.InjOn key (sourcesOf decode config (calls ++ [call]))) :
    Serves decode config (uses decode config calls) e call where
  hit source hsource hmem := by
    obtain ⟨c, hin, -, hresult, hengine⟩ := h.hit (key_of_mem_uses hkeys hsource) hmem
    obtain ⟨hhanded, hafter⟩ := of_source (e := e) (by rw [h.configured]; exact hsource)
    refine ⟨c, hin, ?_, ?_⟩
    · rw [hhanded, hresult]
    · rw [hafter, hengine]
      rfl
  miss source t hsource hmem ht := by
    obtain ⟨hhanded, -⟩ := of_source (e := e) (by rw [h.configured]; exact hsource)
    rw [hhanded, (h.miss (key_of_mem_uses hkeys hsource) hmem ht).1]
  fail source err hsource herr := by
    obtain ⟨hhanded, hafter⟩ := of_source (e := e) (by rw [h.configured]; exact hsource)
    obtain ⟨hresult, hengine⟩ := h.fail (key_of_mem_uses hkeys hsource) herr
    rw [hhanded, hafter, hresult, hengine]
    exact ⟨rfl, rfl⟩
  unread path entry hcall hsource := by
    rw [← h.configured] at hsource
    exact of_no_source hsource (by rw [hcall]; rfl)
  render source data hcall := by
    constructor
    · simp only [render]
      cases (e.compile source).result with
      | error err => rfl
      | ok c => rfl
    · rw [hcall, (of_source (e := e) rfl).2, (of_source (e := e) rfl).2]

/-- **The cache of an engine is an exact record of the last uses.** After any calls it holds the sources
used last that differ, as many as it may hold, by their last use; with a size of zero it is empty. The
next call gets the template that is stored for its source, or a new one, which no call got before. Files
are read by any decoder. -/
theorem run_recent (decode : Text.Decoder) (config : Config) (calls : List Call) (call : Call)
    (hkeys : Set.InjOn key (sourcesOf decode config (calls ++ [call]))) :
    Holds config (recent config (uses decode config calls)) ((start config).run decode calls).cache ∧
    ((start config).run decode calls).cache.length ≤ config.cacheSize.toNat ∧
    (config.cacheSize = 0 → ((start config).run decode calls).cache = []) ∧
    Serves decode config (uses decode config calls) ((start config).run decode calls) call ∧
    ∀ earlier prior later c, calls = earlier ++ prior :: later →
      ((start config).run decode earlier).handed decode prior = some (.ok c) →
      c.serial < ((start config).run decode calls).serials := by
  have hcalls := hkeys.mono (sourcesOf_mono decode config (List.subset_append_left calls [call]))
  have hkeeps := keeps_run calls hcalls
  refine ⟨hkeeps.held, hkeeps.length_le, fun hzero => ?_, hkeeps.serves hkeys, ?_⟩
  · have hlength := hkeeps.length_le
    rw [hzero] at hlength
    exact List.length_eq_zero_iff.mp (Nat.le_zero.mp hlength)
  · rintro earlier prior later c rfl hc
    exact serial_lt_of_handed hcalls hc

/-- The digits of a key. -/
theorem toList_key (source : String) : (key source).toList =
    ((Digest.sha256 source.toUTF8.toList).flatMap fun w => Text.hex 8 w.toNat).take 16 := by
  rw [key, Digest.sha256Hex, String.toList_ofList, String.toList_ofList]

/-- A configuration with room for two templates. -/
def roomForTwo : Config := ⟨none, none, 2, "utf-8"⟩

/-- Four calls on three sources, the first of which is used again before the third. -/
def visits : List Call := [.compile "a", .render "b" .null, .compile "a", .compile "c"]

/-- With room for two, the source that was used again is left, and the one between its uses is not. -/
theorem run_recent_visits :
    Set.InjOn key (sourcesOf Text.decodeFile roomForTwo (visits ++ [.compile "b"])) ∧
    Holds roomForTwo ["a", "c"] ((start roomForTwo).run Text.decodeFile visits).cache ∧
    Serves Text.decodeFile roomForTwo ["a", "b", "a", "c"]
      ((start roomForTwo).run Text.decodeFile visits) (.compile "b") := by
  have hkeys : Set.InjOn key (sourcesOf Text.decodeFile roomForTwo (visits ++ [.compile "b"])) := by
    have hmem : ∀ s ∈ sourcesOf Text.decodeFile roomForTwo (visits ++ [.compile "b"]),
        s ∈ ["a", "b", "c"] := by
      rintro s ⟨call, hcall, hsource⟩
      simp only [visits, List.cons_append, List.nil_append, List.mem_cons, List.not_mem_nil,
        or_false] at hcall
      rcases hcall with rfl | rfl | rfl | rfl | rfl <;> obtain rfl := Option.some.inj hsource <;> simp
    have hdigits : (["a", "b", "c"].map fun s => (key s).toList).Nodup := by
      simp only [List.map_cons, List.map_nil, toList_key]
      decide +kernel
    intro s hs t ht hkey
    exact List.inj_on_of_nodup_map hdigits (hmem s hs) (hmem t ht) (congrArg String.toList hkey)
  have huses : uses Text.decodeFile roomForTwo visits = ["a", "b", "a", "c"] := by decide +kernel
  have hrecent : recent roomForTwo (uses Text.decodeFile roomForTwo visits) = ["a", "c"] := by
    rw [huses]
    decide
  obtain ⟨hheld, -, -, hserves, -⟩ := run_recent Text.decodeFile roomForTwo visits (.compile "b") hkeys
  rw [hrecent] at hheld
  rw [huses] at hserves
  exact ⟨hkeys, hheld, hserves⟩

end Engine

end Stencil
