import Mathlib.Data.Rat.Floor
import SemanticCi.Library.KeyedSort
import SemanticCi.Python.Path

/-! `cli/code_state_cache.py`: the files below the cache root that count against its budget, and
the eviction of the oldest of them. -/

namespace SemanticCi.CodeStateCache

open SemanticCi.Python

/-! ## Records -/

/-- `(path, st_mtime, st_size)`. -/
structure CacheFileRecord where
  path : PurePath
  mtime : ℚ
  size : ℕ
deriving DecidableEq

/-- A path that `rglob("*")` lists; without a `stat` when that raises. -/
structure CacheRootEntry where
  path : PurePath
  isFile : Bool
  stat : Option (ℚ × ℕ)

def staleTmpSeconds : ℚ := 60 * 60

/-- `_file_record`. -/
def fileRecord (entry : CacheRootEntry) : Option CacheFileRecord :=
  entry.stat.map fun stat => ⟨entry.path, stat.1, stat.2⟩

/-- The body of the loop of `_cache_file_records`: a `.tmp` file counts once it is stale. -/
def entryRecord (now : ℚ) (entry : CacheRootEntry) : Option CacheFileRecord :=
  if !entry.isFile then none
  else if PurePath.suffix entry.path = ".json" then fileRecord entry
  else if PurePath.suffix entry.path = ".tmp" then
    (fileRecord entry).filter fun record => ¬ now - record.mtime < staleTmpSeconds
  else none

/-- `_cache_file_records`; a cache root that does not exist lists nothing. -/
def cacheFileRecords (now : ℚ) (entries : List CacheRootEntry) : List CacheFileRecord :=
  entries.filterMap (entryRecord now)

/-! ## Eviction -/

/-- The fraction of the budget that an eviction goes down to. -/
structure LowWater where
  fraction : ℚ
  positive : 0 < fraction
  atMostOne : fraction ≤ 1

/-- `DEFAULT_EVICTION_LOW_WATER`. -/
def defaultEvictionLowWater : LowWater := ⟨4 / 5, by norm_num, by norm_num⟩

/-- What comes of `path.unlink()`. -/
inductive UnlinkOutcome where
  | removed
  | fileNotFound
  | osError (message : String)
deriving DecidableEq

/-- How the loop ends: the running total, and every `unlink` with its outcome. -/
structure Eviction where
  total : ℤ
  attempts : List (CacheFileRecord × UnlinkOutcome)

/-- The paths that `evict_to_budget` returns. -/
def Eviction.removed (e : Eviction) : List PurePath :=
  (e.attempts.filter fun attempt => attempt.2 = .removed).map fun attempt => attempt.1.path

/-- The files that are removed or found already gone. -/
def gone (attempts : List (CacheFileRecord × UnlinkOutcome)) : List CacheFileRecord :=
  (attempts.filter fun attempt => attempt.2 = .removed ∨ attempt.2 = .fileNotFound).map Prod.fst

section Evict

variable (unlink : CacheFileRecord → UnlinkOutcome)

/-- The loop of `evict_to_budget` over the records that are left. -/
def evictLoop (target : ℤ) (total : ℤ) : List CacheFileRecord → Eviction
  | [] => ⟨total, []⟩
  | record :: rest =>
    if total ≤ target then ⟨total, []⟩
    else
      let next := match unlink record with
        | .removed => evictLoop target (total - record.size) rest
        | .fileNotFound => evictLoop target (total - record.size) rest
        | .osError _ => evictLoop target total rest
      ⟨next.total, (record, unlink record) :: next.attempts⟩

/-- `int(budget_bytes * low_water)`, of a positive budget. -/
def lowWaterTarget (budget : ℤ) (lowWater : LowWater) : ℤ := ⌊budget * lowWater.fraction⌋

/-- `evict_to_budget`. -/
def evictToBudget (records : List CacheFileRecord) (budget : ℤ) (lowWater : LowWater) : Eviction :=
  let total : ℤ := (records.map fun record => (record.size : ℤ)).sum
  if budget ≤ 0 then ⟨total, []⟩
  else if total ≤ budget then ⟨total, []⟩
  else evictLoop unlink (lowWaterTarget budget lowWater) total
    (KeyedSort.sortBy CacheFileRecord.mtime records)

/-- `evict_to_budget(cache_root, budget_bytes)`. -/
def evictCacheRoot (now : ℚ) (entries : List CacheRootEntry) (budget : ℤ) : Eviction :=
  evictToBudget unlink (cacheFileRecords now entries) budget defaultEvictionLowWater

end Evict

end SemanticCi.CodeStateCache
