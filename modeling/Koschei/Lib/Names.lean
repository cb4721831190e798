import Mathlib.Data.List.Dedup
import Mathlib.Data.List.Induction

/-!
# Names

What the modules use throughout of the library on lists, pairs, texts, Booleans and options,
under short names.
-/

namespace Koschei

export List (Forall₂ Subset.refl Subset.trans all_eq_true any_cons any_eq_true append_assoc
  append_cancel_left append_cons append_eq_nil_iff append_inj append_inj' append_nil append_of_mem
  cons.inj cons.injEq cons_append cons_ne_nil cons_subset contains_iff_mem count_append
  count_cons_self count_eq_zero dropWhile_append_of_pos dropWhile_cons exists_mem_of_ne_nil
  filterMap_cons filter_append filter_congr filter_cons filter_eq_nil_iff filter_sublist find?_cons
  find?_eq_none find?_some flatMap_cons flatten_cons foldlM_cons foldlM_nil foldl_append foldl_cons
  forall_mem_append forall_mem_cons forall_mem_nil getElem_map getElem_mem getElem_take
  getLast?_concat head?_cons inj_on_of_nodup_map intercalate_cons_cons intercalate_singleton leftpad
  length_append length_cons length_eq_one_iff length_eq_zero_iff length_map length_nil
  length_replicate length_singleton lookup_append lookup_cons lookup_eq_none_iff lookup_eq_some_iff
  map_append map_congr_left map_cons map_eq_nil_iff map_id map_map map_nil map_reverse map_singleton
  mem_append mem_append_left mem_append_right mem_cons mem_cons_of_mem mem_cons_self mem_dedup
  mem_filter mem_filterMap mem_flatMap mem_iff_getElem mem_map mem_mapIdx mem_map_of_mem
  mem_mergeSort mem_of_find?_eq_some mem_of_getElem? mem_reverse mem_singleton mem_singleton_self
  ne_nil_of_mem nil_append nil_subset nodup_append nodup_cons nodup_nil nodup_singleton not_mem_nil
  of_mem_zip range pairwise_cons pairwise_singleton prefix_append prefix_rfl replicate reverseRecOn
  reverse_append reverse_reverse singleton_append singleton_sublist subset_cons_self sum_append
  sum_cons tail_cons takeWhile_cons take_append_drop zipWith zip_cons_cons)

export Prod (fst snd)

export String (length_toList ofList ofList_inj ofList_toList toList toList_append toList_inj
  toList_intercalate toList_ofList)

export Char (isDigit)

export Bool (and_eq_true eq_false_iff false_eq_true false_ne_true not_eq_false not_eq_true
  not_eq_true' or_eq_false_iff or_eq_true)

export Option (some.inj some.injEq bind_eq_some_iff bind_some getD_some isNone_iff_eq_none
  isSome_iff_exists isSome_map isSome_none isSome_some map_eq_some_iff map_none map_some
  mem_some_iff none_or toList_none)

export Except (ok.inj ok.injEq)

export Relation (TransGen)

export Function (update_of_ne update_self)

end Koschei
