import ChangeReview.Proofs.Analysis.Transparency
import ChangeReview.Proofs.Cache.SeparateKeys

/-!
# Entries of different requests

The key of a request is made from an object of eight members, so it tells of each of them which data
it is. Requests that find their entry in one place therefore agree in the diff, the title, the
provider, the model, the language, the framework, in whether the scanner is asked for and in the
names of the documents.
-/
namespace ChangeReview

namespace Value

@[simp] theorem sameData_text {s t : Text} : (text s).sameData (text t) = true ↔ s = t := by
  rw [sameData, beq_iff_eq]

@[simp] theorem sameData_ofTexts {ss ts : List Text} :
    (ofTexts ss).sameData (ofTexts ts) = true ↔ ss = ts := by
  rw [ofTexts, ofTexts, sameData]
  induction ss generalizing ts with
  | nil => cases ts <;> simp [sameItems]
  | cons s ss ih => cases ts <;> simp [sameItems, ih]

end Value

namespace Analysis

variable {env env' : Environment} {d d' : Disk} {q q' : Request} {p p' : Prepared}

/-- The requests agree in all that their keys tell, up to the order of members. -/
structure Agree (q q' : Request) (p p' : Prepared) : Prop where
  diff : q.diff = q'.diff
  title : q.title.sameData q'.title = true
  provider : p.settings.provider.sameData p'.settings.provider = true
  model : p.settings.model.sameData p'.settings.model = true
  language : q.language.sameData q'.language = true
  framework : q.framework.sameData q'.framework = true
  scan : p.context.scanEnabled.sameData p'.context.scanEnabled = true
  documents : documentNames p.context.docs = documentNames p'.context.docs

end Analysis

end ChangeReview
