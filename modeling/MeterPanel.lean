import MeterPanel.Bus.Master
import MeterPanel.Display.Request
import MeterPanel.Drawing
import MeterPanel.Meter.Basic
import MeterPanel.Proofs.ByteChanges
import MeterPanel.Proofs.GlyphColumns
import MeterPanel.Proofs.TextCells
import MeterPanel.Proofs.TextLines
import MeterPanel.Proofs.BarPicture
import MeterPanel.Proofs.Attempts
import MeterPanel.Proofs.Requests
import MeterPanel.Proofs.ReadingPicture
import MeterPanel.Proofs.PeakHold
import MeterPanel.Proofs.Sessions
import MeterPanel.Proofs.CheckedDrawing
import MeterPanel.Proofs.FrameSafety
import MeterPanel.Proofs.SessionPictures
import MeterPanel.Proofs.Readiness
import MeterPanel.Proofs.MeterBounds
import MeterPanel.Proofs.StatusText
import MeterPanel.Proofs.PrintedLine
import MeterPanel.Proofs.Highlights
import MeterPanel.Proofs.BarEffect
import MeterPanel.Proofs.CharacterPicture
import MeterPanel.Proofs.InvertedCells
import MeterPanel.Proofs.LevelPixels
import MeterPanel.Proofs.PeakMarks
import MeterPanel.Proofs.PeakDecay
import MeterPanel.Proofs.PixelMemory
import MeterPanel.Proofs.VisibleRows
import MeterPanel.Proofs.GlyphRows
