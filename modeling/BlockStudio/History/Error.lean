import BlockStudio.Text.Split

namespace BlockStudio

inductive HistoryError where
  | nothingToUndo
  | nothingToRedo
  | snapshot
  | saveFailed (path message : String)
  | saveEscalation (failures : Nat) (message : String)
deriving Repr, DecidableEq

namespace HistoryError

def message : HistoryError → String
  | nothingToUndo => "Nothing to undo"
  | nothingToRedo => "Nothing to redo"
  | snapshot => "Snapshot error"
  | saveFailed path m => "Failed to save " ++ path ++ ": " ++ m
  | saveEscalation failures m =>
    "Saving has failed " ++ Text.natText failures ++ " times in a row; last error: " ++ m

def isFatal : HistoryError → Bool
  | saveEscalation _ _ => true
  | _ => false

end HistoryError

end BlockStudio
