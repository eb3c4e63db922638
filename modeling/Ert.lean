import Ert.Python.Json
import Ert.Python.Text
import Ert.Python.Call
import Ert.Docs.Labels
import Ert.Docs.Slug
import Ert.Docs.Parens
import Ert.Docs.Render
import Ert.Docs.Keywords
import Ert.Data.Frame
import Ert.Data.MeasuredData
import Ert.Data.GetData
import Ert.Data.Run
import Ert.Config.ExportConfig
