import FermiSdk.Lib.Codec
import FermiSdk.Lib.Table

/-!
# Records of named fields

A record is the bytes of its fields one after another, each field with a fixed width (`write`). A
field is read by its name (`read`), and what was written for it is read back (`read_write`). All bytes
of the right number are a record (`exists_record`), and so are all entries of the right widths
(`exists_record_of_entries`).
-/

namespace FermiSdk.Lib.Fields

variable {ν : Type} {fields : List (ν × Nat)} {value : ν → Bytes} {name : ν}

/-- The bytes of a record, given the bytes of each field. -/
def write (fields : List (ν × Nat)) (value : ν → Bytes) : Bytes := fields.flatMap fun f => value f.1

/-- How many bytes a record has. -/
def size (fields : List (ν × Nat)) : Nat := (fields.map Prod.snd).sum

/-- The bytes of a field. -/
def read [DecidableEq ν] : List (ν × Nat) → Bytes → ν → Bytes
  | [], _, _ => []
  | (name, width) :: fields, data, wanted =>
    if name = wanted then data.take width else read fields (data.drop width) wanted

/-- Each field has its width. -/
def Fits (fields : List (ν × Nat)) (value : ν → Bytes) : Prop :=
  ∀ f ∈ fields, (value f.1).length = f.2

theorem Fits.cons {f : ν × Nat} (h : Fits (f :: fields) value) :
    (value f.1).length = f.2 ∧ Fits fields value :=
  ⟨h f List.mem_cons_self, fun g hg => h g (List.mem_cons_of_mem f hg)⟩

theorem length_write (h : Fits fields value) : (write fields value).length = size fields := by
  induction fields with
  | nil => rfl
  | cons f fields ih =>
    obtain ⟨hf, hfields⟩ := h.cons
    have := ih hfields
    simp only [write, size, List.flatMap_cons, List.length_append, List.map_cons,
      List.sum_cons] at this ⊢
    rw [hf, this]

/-- **What was written for a field is read back.** -/
theorem read_write [DecidableEq ν] (h : Fits fields value) (hname : name ∈ fields.map Prod.fst) :
    read fields (write fields value) name = value name := by
  induction fields with
  | nil => cases hname
  | cons f fields ih =>
    obtain ⟨hf, hfields⟩ := h.cons
    rw [write, List.flatMap_cons]
    unfold read
    by_cases heq : f.1 = name
    · subst heq
      rw [if_pos rfl, List.take_left' hf]
    · rw [if_neg heq, List.drop_left' hf]
      refine ih hfields ?_
      rw [List.map_cons, List.mem_cons] at hname
      exact hname.resolve_left (Ne.symm heq)

/-- A field is read where the fields before it end. -/
theorem read_append [DecidableEq ν] {before after : List (ν × Nat)} {width : Nat} {data : Bytes}
    (h : name ∉ before.map Prod.fst) :
    read (before ++ (name, width) :: after) data name = (data.drop (size before)).take width := by
  induction before generalizing data with
  | nil =>
    rw [List.nil_append, read, if_pos rfl]
    rfl
  | cons f before ih =>
    rw [List.map_cons, List.mem_cons, not_or] at h
    rw [List.cons_append, read, if_neg (Ne.symm h.1), ih h.2, List.drop_drop]
    rfl

/-- What is read of a record does not depend on what follows it. -/
theorem read_take [DecidableEq ν] {data : Bytes} :
    read fields (data.take (size fields)) name = read fields data name := by
  induction fields generalizing data with
  | nil => rfl
  | cons f fields ih =>
    have hsize : size (f :: fields) = f.2 + size fields := rfl
    rw [read, read, hsize]
    by_cases heq : f.1 = name
    · rw [if_pos heq, if_pos heq, List.take_take, min_eq_left (Nat.le_add_right _ _)]
    · rw [if_neg heq, if_neg heq, List.drop_take, Nat.add_sub_cancel_left, ih]

/-- A value for every field of a record, of its width, and for nothing else. -/
structure Record (fields : List (ν × Nat)) where
  value : ν → Bytes
  fits : Fits fields value
  outside : ∀ name ∉ fields.map Prod.fst, value name = []

theorem read_of_notMem [DecidableEq ν] {data : Bytes} (hname : name ∉ fields.map Prod.fst) :
    read fields data name = [] := by
  induction fields generalizing data with
  | nil => rfl
  | cons f fields ih =>
    rw [List.map_cons, List.mem_cons, not_or] at hname
    unfold read
    rw [if_neg (Ne.symm hname.1), ih hname.2]

/-- Reading gives the values of the record that was written. -/
theorem Record.read_write [DecidableEq ν] (r : Record fields) :
    read fields (write fields r.value) = r.value := by
  funext name
  by_cases hname : name ∈ fields.map Prod.fst
  · exact Fields.read_write r.fits hname
  · rw [read_of_notMem hname, r.outside name hname]

/-- Any bytes of the right number are a record. -/
theorem exists_record [DecidableEq ν] {data : Bytes} (h : data.length = size fields)
    (hnodup : (fields.map Prod.fst).Nodup) :
    ∃ r : Record fields, write fields r.value = data := by
  induction fields generalizing data with
  | nil =>
    obtain rfl : data = [] := List.length_eq_zero_iff.1 h
    exact ⟨⟨fun _ => [], by simp [Fits], fun _ _ => rfl⟩, rfl⟩
  | cons f fields ih =>
    rw [List.map_cons, List.nodup_cons] at hnodup
    have hsize : data.length = f.2 + size fields := h
    have hrest : (data.drop f.2).length = size fields := by
      rw [List.length_drop]
      omega
    obtain ⟨r, hr⟩ := ih hrest hnodup.2
    have hold : ∀ g ∈ fields, Function.update r.value f.1 (data.take f.2) g.1 = r.value g.1 := by
      intro g hg
      refine Function.update_of_ne ?_ _ _
      rintro heq
      exact hnodup.1 (heq ▸ List.mem_map_of_mem hg)
    refine ⟨⟨Function.update r.value f.1 (data.take f.2), ?fits, ?outside⟩, ?write⟩
    case fits =>
      intro g hg
      rcases List.mem_cons.1 hg with rfl | hg
      · rw [Function.update_self, List.length_take]
        omega
      · rw [hold g hg, r.fits g hg]
    case outside =>
      intro name hname
      rw [List.map_cons, List.mem_cons, not_or] at hname
      rw [Function.update_of_ne hname.1, r.outside name hname.2]
    case write =>
      have htail : fields.flatMap (fun g => Function.update r.value f.1 (data.take f.2) g.1) =
          data.drop f.2 := by
        rw [← hr, write]
        exact List.flatMap_congr hold
      show Function.update r.value f.1 (data.take f.2) f.1 ++ fields.flatMap _ = data
      rw [htail, Function.update_self, List.take_append_drop]

/-- Entries of their fields' widths are those of a record. -/
theorem exists_record_of_entries [DecidableEq ν] {entries : List (ν × Bytes)}
    (hfields : (fields.map Prod.fst).Nodup) (hentries : (entries.map Prod.fst).Nodup)
    (h : ∀ entry ∈ entries, (entry.1, entry.2.length) ∈ fields) :
    ∃ r : Record fields, ∀ entry ∈ entries, r.value entry.1 = entry.2 := by
  let value (name : ν) : Bytes := (fields.lookup name).elim [] fun width =>
    (entries.lookup name).getD (List.replicate width 0)
  have hwidth {f : ν × Nat} (hf : f ∈ fields) : fields.lookup f.1 = some f.2 :=
    (lookup_eq_some_iff_mem hfields).2 hf
  refine ⟨⟨value, ?fits, ?outside⟩, ?entries⟩
  case fits =>
    intro f hf
    show ((fields.lookup f.1).elim [] _).length = f.2
    rw [hwidth hf, Option.elim_some]
    cases hentry : entries.lookup f.1 with
    | none => exact List.length_replicate
    | some bytes =>
      have hmem := h _ ((lookup_eq_some_iff_mem hentries).1 hentry)
      exact Option.some.inj ((hwidth hmem).symm.trans (hwidth hf))
  case outside =>
    intro name hname
    show (fields.lookup name).elim [] _ = []
    rw [List.lookup_eq_none_iff.2 ?_]
    · rfl
    · intro f hf
      refine bne_iff_ne.2 ?_
      rintro rfl
      exact hname (List.mem_map_of_mem hf)
  case entries =>
    intro entry hentry
    show (fields.lookup entry.1).elim [] _ = entry.2
    rw [hwidth (h entry hentry), Option.elim_some,
      (lookup_eq_some_iff_mem hentries).2 hentry]
    rfl

end FermiSdk.Lib.Fields
