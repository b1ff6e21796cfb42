import VoxTranslate.Base
import VoxTranslate.Engine.Qwen

/-!
# Exported transcripts (`ExportEvent`, `TranscriptExport` in `transcripts.rs`)

The events of a session with their originals and translations, in the order of the table.  What
reads an export is modelled elsewhere: subtitles, sentiment windows, the correction of its texts.
-/

namespace VoxTranslate.Transcripts

open Engine (Text)

/-- The `event_type` column. -/
inductive EventKind where
  | speech
  | chat
  deriving DecidableEq, Repr

structure ExportEvent where
  kind : EventKind
  ts : Timestamp
  speakerName : Text
  lang : Text
  original : Text
  /-- By language. -/
  translations : Text → Option Text

/-- The events of a session that started at an instant. -/
structure TranscriptExport where
  startedAt : Timestamp
  events : List ExportEvent

end VoxTranslate.Transcripts
