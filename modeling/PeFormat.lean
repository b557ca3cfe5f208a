import PeFormat.Image
import PeFormat.Digest
import PeFormat.Tls
import PeFormat.Certificates
import PeFormat.Resources.Tree
import PeFormat.Resources.Load
import PeFormat.Dotnet.Heaps
import PeFormat.Dotnet.MetadataTables
import PeFormat.Dotnet.HeaderSearch
import PeFormat.Dotnet.Headers
import PeFormat.Dotnet.TypeLib
import PeFormat.Dotnet.TypeRefHash
import PeFormat.Pdb
import PeFormat.DllList
import PeFormat.RichHeader
import PeFormat.Anomalies
import PeFormat.VisualBasic
import PeFormat.Loaders
import PeFormat.Header
