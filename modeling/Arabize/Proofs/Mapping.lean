import Arabize.Mapping

/-! # Looking up what was written

After a key was written, it has the value written, and every other key has the value it had
before.
-/

namespace Arabize.Mapping

variable {β : Type}

@[simp] theorem find?_nil (key : Text) : find? key ([] : Mapping β) = none := rfl

theorem find?_insert (m : Mapping β) (key t : Text) (value : β) :
    find? t (insert key value m) = if key = t then some value else find? t m := by
  induction m with
  | nil => simp only [insert, find?]
  | cons kv rest ih =>
    obtain ⟨k, v⟩ := kv
    by_cases same : k = key
    · subst same
      simp only [insert, if_true, find?]
      split <;> rfl
    · simp only [insert, if_neg same, find?, ih]
      by_cases here : k = t
      · subst here
        simp only [if_true, if_neg (Ne.symm same)]
      · simp only [if_neg here]

theorem insert_of_not_mem {m : Mapping β} {key : Text} (absent : key ∉ keys m) (value : β) :
    insert key value m = m ++ [(key, value)] := by
  induction m with
  | nil => rfl
  | cons kv rest ih =>
    obtain ⟨k, v⟩ := kv
    rw [keys, List.map_cons, List.mem_cons, not_or] at absent
    rw [insert, if_neg (Ne.symm absent.1), ih absent.2, List.cons_append]

theorem keys_insert_of_mem {m : Mapping β} {key : Text} (known : key ∈ keys m) (value : β) :
    keys (insert key value m) = keys m := by
  induction m with
  | nil => cases known
  | cons kv rest ih =>
    obtain ⟨k, v⟩ := kv
    by_cases same : k = key
    · subst same
      rw [insert, if_pos rfl]
      rfl
    · have behind : key ∈ keys rest := (List.mem_cons.1 known).resolve_left (Ne.symm same)
      rw [insert, if_neg same]
      exact congrArg (k :: ·) (ih behind)

theorem nodup_keys_insert {m : Mapping β} (nodup : (keys m).Nodup) (key : Text) (value : β) :
    (keys (insert key value m)).Nodup := by
  by_cases known : key ∈ keys m
  · rwa [keys_insert_of_mem known]
  · rw [insert_of_not_mem known, keys, List.map_append, List.nodup_append]
    refine ⟨nodup, by simp, fun k member new here => ?_⟩
    rintro rfl
    have same : k = key := List.mem_singleton.1 here
    exact known (same ▸ member)

theorem mem_insert {m : Mapping β} {key : Text} {value : β} {kv : Text × β}
    (member : kv ∈ insert key value m) : kv = (key, value) ∨ kv ∈ m := by
  induction m with
  | nil => exact .inl (List.mem_singleton.1 member)
  | cons first rest ih =>
    obtain ⟨k, v⟩ := first
    simp only [insert] at member
    split at member
    next same =>
      subst same
      exact (List.mem_cons.1 member).imp_right (List.mem_cons_of_mem _)
    next =>
      rcases List.mem_cons.1 member with rfl | behind
      · exact .inr List.mem_cons_self
      · exact (ih behind).imp_right (List.mem_cons_of_mem _)

theorem mem_of_find? {m : Mapping β} {key : Text} {value : β}
    (found : find? key m = some value) : (key, value) ∈ m := by
  induction m with
  | nil => cases found
  | cons kv rest ih =>
    obtain ⟨k, v⟩ := kv
    by_cases same : k = key
    · simp only [find?, if_pos same, Option.some.injEq] at found
      rw [← same, ← found]
      exact List.mem_cons_self
    · simp only [find?, if_neg same] at found
      exact List.mem_cons_of_mem _ (ih found)

/-! ## Updates -/

theorem find?_update_of_not_mem {m new : Mapping β} {key : Text} (absent : key ∉ keys new) :
    find? key (m.update new) = find? key m := by
  induction new generalizing m with
  | nil => rfl
  | cons kv rest ih =>
    rw [keys, List.map_cons, List.mem_cons, not_or] at absent
    refine (ih absent.2).trans ?_
    rw [find?_insert, if_neg (Ne.symm absent.1)]

/-- An update with a mapping gives its keys their values. -/
theorem find?_update_of_mem {m new : Mapping β} (nodup : (keys new).Nodup) {key : Text}
    {value : β} (member : (key, value) ∈ new) : find? key (m.update new) = some value := by
  induction new generalizing m with
  | nil => cases member
  | cons kv rest ih =>
    obtain ⟨absent, distinct⟩ := List.nodup_cons.1 nodup
    rcases List.mem_cons.1 member with rfl | behind
    · refine (find?_update_of_not_mem absent).trans ?_
      rw [find?_insert, if_pos rfl]
    · exact ih distinct behind

theorem mem_update {m new : Mapping β} {kv : Text × β} (member : kv ∈ m.update new) :
    kv ∈ m ∨ kv ∈ new := by
  induction new generalizing m with
  | nil => exact .inl member
  | cons first rest ih =>
    rcases ih member with inside | behind
    · rcases mem_insert inside with rfl | before
      · exact .inr List.mem_cons_self
      · exact .inl before
    · exact .inr (List.mem_cons_of_mem _ behind)

theorem nodup_keys_update {m : Mapping β} (nodup : (keys m).Nodup) (new : Mapping β) :
    (keys (m.update new)).Nodup := by
  induction new generalizing m with
  | nil => exact nodup
  | cons kv rest ih => exact ih (nodup_keys_insert nodup kv.1 kv.2)

/-- Pairs with new keys come behind those that are there. -/
theorem update_of_nodup {m new : Mapping β} (nodup : (keys (m ++ new)).Nodup) :
    m.update new = m ++ new := by
  induction new generalizing m with
  | nil => exact (List.append_nil m).symm
  | cons kv rest ih =>
    have absent : kv.1 ∉ keys m := by
      rw [keys, List.map_append, List.nodup_append] at nodup
      exact fun member => nodup.2.2 _ member _ List.mem_cons_self rfl
    change (m.insert kv.1 kv.2).update rest = _
    rw [insert_of_not_mem absent, ih (by rwa [List.append_assoc]), List.append_assoc]
    rfl

theorem ofPairs_of_nodup {pairs : List (Text × β)} (nodup : (keys pairs).Nodup) :
    ofPairs pairs = pairs :=
  update_of_nodup (m := []) nodup

/-- To write what is there already changes nothing. -/
theorem insert_of_find? {m : Mapping β} {key : Text} {value : β}
    (found : find? key m = some value) : insert key value m = m := by
  induction m with
  | nil => cases found
  | cons kv rest ih =>
    obtain ⟨k, v⟩ := kv
    by_cases same : k = key
    · simp only [find?, if_pos same, Option.some.injEq] at found
      rw [insert, if_pos same, same, found]
    · simp only [find?, if_neg same] at found
      rw [insert, if_neg same, ih found]

theorem update_of_find? {m new : Mapping β}
    (found : ∀ kv ∈ new, find? kv.1 m = some kv.2) : m.update new = m := by
  induction new with
  | nil => rfl
  | cons kv rest ih =>
    obtain ⟨here, behind⟩ := List.forall_mem_cons.1 found
    exact (congrArg (fun m => update m rest) (insert_of_find? here)).trans (ih behind)

theorem find?_of_not_mem {m : Mapping β} {key : Text} (absent : key ∉ keys m) :
    find? key m = none := by
  cases found : find? key m with
  | none => rfl
  | some value => exact absurd (List.mem_map.2 ⟨_, mem_of_find? found, rfl⟩) absent

/-- What a key has after an update is what it was given, else what it had. -/
theorem find?_update {new : Mapping β} (nodup : (keys new).Nodup) (m : Mapping β) (key : Text) :
    find? key (m.update new) = (find? key new).or (find? key m) := by
  induction new generalizing m with
  | nil => rfl
  | cons kv rest ih =>
    obtain ⟨absent, distinct⟩ := List.nodup_cons.1 nodup
    refine (ih distinct (insert kv.1 kv.2 m)).trans ?_
    rw [find?_insert, find?]
    by_cases here : kv.1 = key
    · rw [if_pos here, if_pos here, find?_of_not_mem (here ▸ absent)]
      rfl
    · rw [if_neg here, if_neg here]

theorem find?_append (front back : Mapping β) (key : Text) :
    find? key (front ++ back) = (find? key front).or (find? key back) := by
  induction front with
  | nil => rfl
  | cons kv rest ih =>
    rw [List.cons_append, find?, find?, ih]
    split <;> rfl

/-- Of the pairs that write a key the last one counts. -/
theorem find?_update_reverse (m new : Mapping β) (key : Text) :
    find? key (m.update new) = (find? key new.reverse).or (find? key m) := by
  induction new generalizing m with
  | nil => rfl
  | cons kv rest ih =>
    refine (ih (insert kv.1 kv.2 m)).trans ?_
    rw [List.reverse_cons, find?_append, find?_insert, Option.or_assoc, find?, find?]
    split <;> rfl

/-- Of what was there before an update only the keys that are not updated count. -/
theorem find?_update_congr {m other new : Mapping β} {key : Text}
    (same : key ∉ keys new → find? key m = find? key other) :
    find? key (m.update new) = find? key (other.update new) := by
  induction new generalizing m other with
  | nil => exact same List.not_mem_nil
  | cons kv rest ih =>
    refine ih fun absent => ?_
    rw [find?_insert, find?_insert]
    split
    · rfl
    next differs =>
      exact same (by simpa [keys, Ne.symm differs] using absent)

end Arabize.Mapping
